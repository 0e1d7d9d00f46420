/-
# Built-in types

There are eighteen built-in types.  Every definition of a schema derives, step
by step through its supertypes, from one of them or from nothing at all.
-/

namespace ResourceSchema

/-- A built-in type. -/
inductive BaseType where
  | any
  | bool
  | int8
  | int16
  | int32
  | int64
  | float32
  | float64
  | bytes
  | string
  | timestamp
  | symbol
  | uuid
  | array
  | map
  | struct
  | enum
  | union
deriving DecidableEq, Repr, Inhabited

namespace BaseType

/-- The built-in types in their fixed order. -/
def all : List BaseType :=
  [any, bool, int8, int16, int32, int64, float32, float64, bytes, string, timestamp, symbol,
    uuid, array, map, struct, enum, union]

/-- The list of built-in types has all of them. -/
theorem mem_all (b : BaseType) : b ∈ all := by cases b <;> decide

/-- The name a schema uses for a built-in type. -/
def name : BaseType → String
  | any => "Any"
  | bool => "Bool"
  | int8 => "Int8"
  | int16 => "Int16"
  | int32 => "Int32"
  | int64 => "Int64"
  | float32 => "Float32"
  | float64 => "Float64"
  | bytes => "Bytes"
  | string => "String"
  | timestamp => "Timestamp"
  | symbol => "Symbol"
  | uuid => "UUID"
  | array => "Array"
  | map => "Map"
  | struct => "Struct"
  | enum => "Enum"
  | union => "Union"

/-- The built-in type of that name. -/
def ofName? (n : String) : Option BaseType := all.find? (·.name = n)

/-- **The name of a built-in type tells it.** -/
theorem name_injective {a b : BaseType} (h : a.name = b.name) : a = b := by
  cases a <;> cases b <;> first | rfl | exact absurd h (by decide)

/-- A built-in type is found by its name. -/
theorem ofName?_name (b : BaseType) : ofName? b.name = some b := by cases b <;> decide

end BaseType

end ResourceSchema
