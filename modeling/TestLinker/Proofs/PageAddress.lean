import Mathlib.Data.List.TakeWhile
import TestLinker.Proofs.ReferenceGrammar
import TestLinker.Proofs.Components
import TestLinker.Test.Linking

/-! # The address of a page

Start URLs and statements name the address of a page in two ways that are read apart: a start
URL is cut at its first dot and may lack the dollar sign, a statement is split at all dots.
Each reading is said by an equation of its own (`startPage?_eq_some_iff`,
`ofString?_eq_pageUrl_iff`), and the two equations differ in the page called `elements` only.
Behind both there is one look-up, so that what is found or missing is the same.
-/

namespace TestLinker

/-! ## Reading -/

/-- The name of a page cannot take the dollar sign into itself. -/
theorem Segment.toList_append_ne {page : String} (segment : Segment page) (rest body : List Char) :
    page.toList ++ rest ≠ '$' :: body := by
  intro equal
  cases characters : page.toList with
  | nil => exact segment.nonempty (by simpa using characters)
  | cons first others =>
    rw [characters] at equal
    have dollar : first = '$' := (List.cons.inj equal).1
    exact absurd (segment.chars '$' (by simp [characters, dollar])) (by decide)

/-- The cut at the first dot finds the page, since a page has no dot in its name. -/
theorem cut_iff {body : List Char} {page : String} :
    (body.dropWhile (· != '.') = ['.', 'u', 'r', 'l'] ∧ isSegment (body.takeWhile (· != '.'))) ∧
        String.ofList (body.takeWhile (· != '.')) = page ↔
      Segment page ∧ body = page.toList ++ ['.', 'u', 'r', 'l'] := by
  constructor
  · rintro ⟨⟨rest_eq, isPage⟩, rfl⟩
    rw [← isSegment_iff, String.toList_ofList, ← rest_eq]
    exact ⟨isPage, List.takeWhile_append_dropWhile.symm⟩
  · rintro ⟨segment, rfl⟩
    have isPage := isSegment_iff.mpr segment
    have dotless : ∀ c ∈ page.toList, (c != '.') = true := by
      rintro c member
      exact bne_iff_ne.mpr fun dot => Reference.not_mem_of_isSegment isPage (dot ▸ member)
    have page_eq : (page.toList ++ ['.', 'u', 'r', 'l']).takeWhile (· != '.') = page.toList := by
      rw [List.takeWhile_append_of_pos dotless]
      exact List.append_nil _
    have rest_eq : (page.toList ++ ['.', 'u', 'r', 'l']).dropWhile (· != '.') = ['.', 'u', 'r', 'l'] := by
      rw [List.dropWhile_append_of_pos dotless]
      rfl
    rw [page_eq, rest_eq]
    exact ⟨⟨rfl, isPage⟩, String.ofList_toList⟩

theorem eq_bare_iff {url page : String} : url = page ++ ".url" ↔ url.toList = page.toList ++ ['.', 'u', 'r', 'l'] := by
  rw [← String.toList_inj, String.toList_append]
  rfl

theorem eq_dollared_iff {url page : String} :
    url = "$" ++ page ++ ".url" ↔ url.toList = '$' :: (page.toList ++ ['.', 'u', 'r', 'l']) := by
  rw [← String.toList_inj, String.toList_append, String.toList_append]
  rfl

/-- A start URL stands for the address of a page if it is written with or without the dollar sign. -/
theorem startPage?_eq_some_iff {url page : String} :
    startPage? url = some page ↔ Segment page ∧ (url = page ++ ".url" ∨ url = "$" ++ page ++ ".url") := by
  rw [eq_bare_iff, eq_dollared_iff, startPage?, Option.ite_none_right_eq_some, Option.some.injEq, cut_iff]
  refine and_congr_right fun segment => ?_
  split
  · rename_i body characters
    rw [characters]
    simp [(segment.toList_append_ne _ body).symm]
  · rename_i plain
    have notDollared : url.toList ≠ '$' :: (page.toList ++ ['.', 'u', 'r', 'l']) := plain _
    simp [notDollared]

theorem ofString?_eq_pageUrl_iff {value page : String} :
    Reference.ofString? value = some (.pageUrl page) ↔
      Segment page ∧ page ≠ "elements" ∧ value = "$" ++ page ++ ".url" := by
  rw [Reference.ofString?_eq_some_iff, Reference.readBack_eq_self_iff, Reference.render_eq_written]
  simp [Reference.Valid, Reference.written, eq_comm]

theorem ofString?_address {page : String} (segment : Segment page) (imported : page ≠ "elements") :
    Reference.ofString? ("$" ++ page ++ ".url") = some (.pageUrl page) :=
  ofString?_eq_pageUrl_iff.mpr ⟨segment, imported, rfl⟩

/-- With the dollar sign both readings agree, except for the page called `elements`. -/
theorem startPage?_agrees_iff {rest : String} :
    (∀ page, startPage? ("$" ++ rest) = some page ↔ Reference.ofString? ("$" ++ rest) = some (.pageUrl page)) ↔
      "$" ++ rest ≠ "$elements.url" := by
  simp only [startPage?_eq_some_iff, ofString?_eq_pageUrl_iff]
  constructor
  · intro agree equal
    exact ((agree "elements").mp ⟨Reference.segment_elements, .inr equal⟩).2.1 rfl
  · intro differ page
    constructor
    · rintro ⟨segment, bare | dollared⟩
      · rw [eq_bare_iff, String.toList_append] at bare
        exact absurd bare.symm (segment.toList_append_ne _ _)
      · refine ⟨segment, ?_, dollared⟩
        rintro rfl
        exact differ dollared
    · rintro ⟨segment, _, dollared⟩
      exact ⟨segment, .inr dollared⟩

/-! ## Looking up -/

theorem Pages.url_of_missing {pages : Pages} {page : String} (missing : pages.get? page = none) :
    pages.url page = .error (.ofUnknownItem ⟨.page, page⟩) := by
  rw [Pages.url, Pages.find, Catalog.find_eq_error_iff.mpr ⟨missing, rfl⟩]
  rfl

theorem Pages.url_of_stored {pages : Pages} {page : String} {stored : Page} (found : pages.get? page = some stored) :
    pages.url page = .ok stored.url := by
  rw [Pages.url, Pages.find, Catalog.find_eq_ok_iff.mpr found]
  rfl

theorem Configuration.link_of_startPage? {configuration : Configuration} {pages : Pages} {page : String}
    (starts : startPage? configuration.url = some page) :
    configuration.link pages = (fun address => some { configuration with url := address }) <$> pages.url page := by
  rw [link, starts]
  dsimp only
  cases pages.url page <;> rfl

section

variable {page : String} (segment : Segment page) (imported : page ≠ "elements") (pages : Pages)

include segment imported

theorem linkPageUrl_address : linkPageUrl ("$" ++ page ++ ".url") pages = some <$> pages.url page := by
  rw [linkPageUrl, ofString?_address segment imported]

theorem urlComponent_address (foreign : page ≠ "page") (identifiers : Identifiers) :
    urlComponent ("$" ++ page ++ ".url") pages identifiers =
      (fun address => if address = "$" ++ page ++ ".url" then none else some ("\"" ++ address ++ "\"")) <$>
        pages.url page := by
  have reads := ofString?_address segment imported
  have noProperty : isPageProperty ("$" ++ page ++ ".url") ≠ true := by
    intro property
    have looksLike := Reference.ofString?_of_isPageProperty property
    rw [reads] at looksLike
    simp [foreign] at looksLike
  rw [urlComponent, if_neg noProperty, linkPageUrl_address segment imported]
  cases pages.url page with
  | error error => rfl
  | ok address =>
    change Except.ok (Option.map Text.quoted (changedFrom _ (some address))) = _
    rw [changedFrom_some]
    by_cases same : address = "$" ++ page ++ ".url"
    · rw [if_pos same]
      exact congrArg Except.ok (if_pos same).symm
    · rw [if_neg same]
      exact congrArg Except.ok (if_neg same).symm

end

/-- Start URLs and statements agree on what the address of a page is: `page.url` in start URLs, and
`$page.url` in both, but for `$elements.url`, which is an element for statements. Whoever reads it
finds the same: an error if the page is missing, and otherwise its address, which is put between
double quotes in a statement, if it is another text than what it stands for. -/
theorem addresses_agree :
    (∀ url page, startPage? url = some page ↔ Segment page ∧ (url = page ++ ".url" ∨ url = "$" ++ page ++ ".url")) ∧
      (∀ rest : String,
        (∀ page, startPage? ("$" ++ rest) = some page ↔
          Reference.ofString? ("$" ++ rest) = some (.pageUrl page)) ↔ "$" ++ rest ≠ "$elements.url") ∧
      ∀ (page : String) (pages : Pages) (browsers : List String) (identifiers : Identifiers),
        Segment page → page ≠ "elements" →
          (pages.get? page = none →
            (∀ url ∈ [page ++ ".url", "$" ++ page ++ ".url"],
              Configuration.link ⟨browsers, url⟩ pages = .error (.ofUnknownItem ⟨.page, page⟩)) ∧
            linkPageUrl ("$" ++ page ++ ".url") pages = .error (.ofUnknownItem ⟨.page, page⟩) ∧
            (page ≠ "page" →
              urlComponent ("$" ++ page ++ ".url") pages identifiers = .error (.ofUnknownItem ⟨.page, page⟩))) ∧
          ∀ stored, pages.get? page = some stored →
            (∀ url ∈ [page ++ ".url", "$" ++ page ++ ".url"],
              Configuration.link ⟨browsers, url⟩ pages = .ok (some ⟨browsers, stored.url⟩)) ∧
            linkPageUrl ("$" ++ page ++ ".url") pages = .ok (some stored.url) ∧
            (page ≠ "page" →
              urlComponent ("$" ++ page ++ ".url") pages identifiers =
                .ok (if stored.url = "$" ++ page ++ ".url" then none else some ("\"" ++ stored.url ++ "\""))) := by
  refine ⟨fun url page => startPage?_eq_some_iff, fun rest => startPage?_agrees_iff, ?_⟩
  intro page pages browsers identifiers segment imported
  have starts : ∀ url ∈ [page ++ ".url", "$" ++ page ++ ".url"], startPage? url = some page := by
    intro url member
    exact startPage?_eq_some_iff.mpr ⟨segment, by simpa using member⟩
  have configured : ∀ url ∈ [page ++ ".url", "$" ++ page ++ ".url"], Configuration.link ⟨browsers, url⟩ pages = _ :=
    fun url member => Configuration.link_of_startPage? (starts url member)
  have inStatement (foreign : page ≠ "page") := urlComponent_address segment imported pages foreign identifiers
  rw [linkPageUrl_address segment imported]
  refine ⟨fun missing => ?_, fun stored found => ?_⟩
  · rw [Pages.url_of_missing missing] at configured inStatement ⊢
    exact ⟨configured, rfl, inStatement⟩
  · rw [Pages.url_of_stored found] at configured inStatement ⊢
    exact ⟨configured, rfl, inStatement⟩

namespace AddressExample

/-- The address of the second page is what a statement writes for it. -/
def pages : Pages :=
  .ofList [("login", ⟨"login", "http://example.com/", .empty⟩), ("loop", ⟨"loop", "$loop.url", .empty⟩)]

end AddressExample

open AddressExample in
theorem login_addresses_agree :
    Segment "login" ∧ Segment "loop" ∧ Segment "shop" ∧
      Configuration.link ⟨["chrome"], "login.url"⟩ pages = .ok (some ⟨["chrome"], "http://example.com/"⟩) ∧
      urlComponent "$login.url" pages .empty = .ok (some "\"http://example.com/\"") ∧
      urlComponent "$loop.url" pages .empty = .ok none ∧
      Configuration.link ⟨[], "$shop.url"⟩ pages = .error (.ofUnknownItem ⟨.page, "shop"⟩) ∧
      urlComponent "$shop.url" pages .empty = .error (.ofUnknownItem ⟨.page, "shop"⟩) := by
  have login : Segment "login" := isSegment_iff.mp (by decide +kernel)
  have loop : Segment "loop" := isSegment_iff.mp (by decide +kernel)
  have shop : Segment "shop" := isSegment_iff.mp (by decide +kernel)
  obtain ⟨_, _, agree⟩ := addresses_agree
  obtain ⟨loginLinks, _, loginQuoted⟩ := (agree "login" pages ["chrome"] .empty login (by decide)).2 _ rfl
  obtain ⟨_, _, loopKept⟩ := (agree "loop" pages [] .empty loop (by decide)).2 _ rfl
  obtain ⟨shopFails, _, shopMissing⟩ := (agree "shop" pages [] .empty shop (by decide)).1 rfl
  exact ⟨login, loop, shop, loginLinks _ (by decide +kernel), loginQuoted (by decide), loopKept (by decide),
    shopFails _ (by decide +kernel), shopMissing (by decide)⟩

end TestLinker
