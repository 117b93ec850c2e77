/-! # Quoted texts

Names in messages and addresses in statements are shown between double quotes. What is
between them is written as it is.
-/

namespace TestLinker.Text

def quoted (text : String) : String := "\"" ++ text ++ "\""

end TestLinker.Text
