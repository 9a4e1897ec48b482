namespace HostBridge

/-- The kinds of value that parameters and results are declared with. -/
inductive Kind where
  | integer | float | numeric | string | boolean | array | object | any
  deriving DecidableEq

namespace Kind

/-- The name a kind is declared by; that of `any` is empty. -/
def name : Kind → String
  | .integer => "Integer"
  | .float => "Float"
  | .numeric => "Numeric"
  | .string => "String"
  | .boolean => "Boolean"
  | .array => "Array"
  | .object => "Object"
  | .any => ""

/-- The name a kind is shown by. -/
def label : Kind → String
  | .any => "Any"
  | k => k.name

def all : List Kind :=
  [.integer, .float, .numeric, .string, .boolean, .array, .object, .any]

def ofName? (s : String) : Option Kind :=
  all.find? fun k => k.name == s

/-- Whether parameters of this kind refuse what is not tagged as a number. -/
def isNumeric : Kind → Bool
  | .integer | .float | .numeric => true
  | _ => false

theorem ofName?_name (k : Kind) : ofName? k.name = some k := by
  cases k <;> decide

end Kind

end HostBridge
