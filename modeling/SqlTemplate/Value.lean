import SqlTemplate.Number.Layout
import SqlTemplate.OrderedMap

/-!
What fills placeholders: scalars, sequences, records and conditions, and the parameters that hold
them by key.
-/

namespace SqlTemplate

/-- One literal of an SQL text. -/
inductive Scalar where
  | null
  | bool (b : Bool)
  | int (n : Int)
  | float (x : Binary64)
  | text (s : String)
deriving DecidableEq, Repr

namespace Scalar

/-- The scalar in plain words, without quotes. -/
def display : Scalar → String
  | .null => "NULL"
  | .bool b => if b then "true" else "false"
  | .int n => toString n
  | .float x => x.text
  | .text s => s

/-- An integer that fits 64 signed bits stays a number. The digits of a larger one travel as text. -/
def ofInteger (n : Int) : Scalar :=
  if n < 0x8000000000000000 then .int n else .text (toString n)

end Scalar

/-- A value of an integer type of at most 64 bits. -/
inductive MachineInteger where
  | int8 (x : Int8)
  | int16 (x : Int16)
  | int32 (x : Int32)
  | int64 (x : Int64)
  | isize (x : ISize)
  | uint8 (x : UInt8)
  | uint16 (x : UInt16)
  | uint32 (x : UInt32)
  | uint64 (x : UInt64)
  | usize (x : USize)

namespace MachineInteger

def toInt : MachineInteger → Int
  | int8 x => x.toInt
  | int16 x => x.toInt
  | int32 x => x.toInt
  | int64 x => x.toInt
  | isize x => x.toInt
  | uint8 x => x.toNat
  | uint16 x => x.toNat
  | uint32 x => x.toNat
  | uint64 x => x.toNat
  | usize x => x.toNat

/-- The number if it fits 64 signed bits, and the text of its digits if not. -/
def tried (n : Int) : Scalar :=
  if -0x8000000000000000 ≤ n ∧ n < 0x8000000000000000 then .int n else .text (toString n)

/-- What the value becomes. A type that fits 64 signed bits anyway needs no trial. -/
def toScalar : MachineInteger → Scalar
  | int8 x => .int x.toInt
  | int16 x => .int x.toInt
  | int32 x => .int x.toInt
  | int64 x => .int x.toInt
  | uint8 x => .int x.toNat
  | uint16 x => .int x.toNat
  | uint32 x => .int x.toNat
  | isize x => tried x.toInt
  | uint64 x => tried x.toNat
  | usize x => tried x.toNat

end MachineInteger

/-- Values for the placeholders of a template: named ones, and one for all `:?` together. -/
structure ParamsOf (α : Type) where
  named : OrderedMap α
  positional : Option α
deriving Repr

/-- Templates with parameters of their own, to be joined by an operator. -/
structure ConditionOf (α : Type) where
  operator : String
  parts : List (String × ParamsOf α)
deriving Repr

/-- What a parameter can be. -/
inductive Value where
  | scalar (s : Scalar)
  | sequence (items : List Value)
  | record (fields : OrderedMap Value)
  | condition (c : ConditionOf Value)

abbrev Record := OrderedMap Value

abbrev Params := ParamsOf Value

abbrev Condition := ConditionOf Value

namespace Value

instance : Inhabited Value := ⟨.scalar .null⟩

def kind : Value → String
  | .scalar _ => "scalar"
  | .sequence _ => "sequence"
  | .record _ => "record"
  | .condition _ => "condition"

def isSequence : Value → Bool
  | .sequence _ => true
  | _ => false

def scalar? : Value → Option Scalar
  | .scalar s => some s
  | _ => none

def items? : Value → Option (List Value)
  | .sequence items => some items
  | _ => none

def record? : Value → Option Record
  | .record fields => some fields
  | _ => none

end Value

namespace ParamsOf

variable {α : Type}

/-- The key of the value for the `:?` placeholders. -/
def positionalKey : String := "?"

def empty : ParamsOf α := ⟨.empty, none⟩

instance : Inhabited (ParamsOf α) := ⟨empty⟩

def get? (params : ParamsOf α) (key : String) : Option α :=
  if key = positionalKey then params.positional else params.named.get? key

def contains (params : ParamsOf α) (key : String) : Bool := (params.get? key).isSome

def insert (params : ParamsOf α) (key : String) (value : α) : ParamsOf α :=
  if key = positionalKey then { params with positional := some value }
  else { params with named := params.named.insert key value }

/-- The number of keys, `?` included. -/
def size (params : ParamsOf α) : Nat :=
  params.named.size + if params.positional.isSome then 1 else 0

def isEmpty (params : ParamsOf α) : Bool := params.size == 0

def ofList (entries : List (String × α)) : ParamsOf α :=
  entries.foldl (fun params entry => params.insert entry.1 entry.2) empty

@[simp]
theorem get?_empty (key : String) : (empty : ParamsOf α).get? key = none := by
  simp [get?, empty]

@[simp]
theorem get?_insert (params : ParamsOf α) (key other : String) (value : α) :
    (params.insert key value).get? other = if other = key then some value else params.get? other := by
  unfold insert get?
  by_cases hkey : key = positionalKey
  · by_cases hother : other = positionalKey <;> simp [hkey, hother]
  · by_cases hother : other = positionalKey
    · simp [hkey, hother, Ne.symm hkey]
    · simp [hkey, hother]

end ParamsOf

/-- Values for the `:?` placeholders, in order. -/
def ParamsOf.withPositional (params : Params) (values : List Value) : Params :=
  { params with positional := some (.sequence values) }

end SqlTemplate
