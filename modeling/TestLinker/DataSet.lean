import TestLinker.Catalog

/-! # Data sets

A step can be run once for each of a collection of data sets. A data set gives the
parameters of the step their values.
-/

namespace TestLinker

/-- The values of the parameters of a step. -/
abbrev DataSet := OrderedMap String String

abbrev DataCollection := OrderedMap String DataSet

abbrev DataSets := Catalog DataCollection

def DataSets.find (dataSets : DataSets) (name : String) : Except UnknownItem DataCollection :=
  Catalog.find .dataSet dataSets name

end TestLinker
