namespace StepRunner

inductive Json where
  | null
  | bool (value : Bool)
  | integer (value : Int)
  | float (value : Float)
  | string (value : String)
  | array (items : List Json)
  | object (entries : List (String × Json))

namespace Json

/-- Puts an entry in its place among sorted ones; a later entry replaces an earlier one. -/
def insertEntry {α : Type} (key : String) (value : α) : List (String × α) → List (String × α)
  | [] => [(key, value)]
  | (k, v) :: rest =>
    if key < k then (key, value) :: (k, v) :: rest
    else if key = k then (key, value) :: rest
    else (k, v) :: insertEntry key value rest

def sortEntries {α : Type} (entries : List (String × α)) : List (String × α) :=
  entries.foldl (fun sorted (key, value) => insertEntry key value sorted) []

mutual

/-- The same value with the keys of every object sorted, and unique. -/
def canonical : Json → Json
  | array items => array (canonicalItems items)
  | object entries => object (sortEntries (canonicalEntries entries))
  | null => null
  | bool value => bool value
  | integer value => integer value
  | float value => float value
  | string value => string value

def canonicalItems : List Json → List Json
  | [] => []
  | item :: items => item.canonical :: canonicalItems items

def canonicalEntries : List (String × Json) → List (String × Json)
  | [] => []
  | (key, value) :: entries => (key, value.canonical) :: canonicalEntries entries

end

end Json

end StepRunner
