import BeanWiring.Entries

/-! The values that a definition gives to properties, arguments and array entries. -/

namespace BeanWiring

/-- A literal value. -/
inductive Literal where
  | null
  | bool (value : Bool)
  | text (value : String)
deriving DecidableEq, Repr

namespace Literal

/-- Whether the literal is the null value. -/
def isNull : Literal → Bool
  | .null => true
  | _ => false

/-- The truth value of a literal that is one. -/
def bool? : Literal → Option Bool
  | .bool value => some value
  | _ => none

/-- The text of a literal that is one. -/
def text? : Literal → Option String
  | .text value => some value
  | _ => none

end Literal

/--
A value: another bean by its id, a literal, entries under keys, or code to be evaluated later.
-/
inductive Value where
  | beanRef (bean : String)
  | simple (literal : Literal)
  | array (entries : List (String × Value))
  | code (expression : String)
deriving Inhabited, Repr

/-- The four kinds of values. -/
inductive ValueKind where
  | beanRef
  | simple
  | array
  | code
deriving DecidableEq, Repr

/-- The name of a kind for display. -/
def ValueKind.display : ValueKind → String
  | .beanRef => "BEAN_REF"
  | .simple => "SIMPLE"
  | .array => "ARRAY"
  | .code => "CODE"

/-- The name of a kind in plain data. -/
def ValueKind.name : ValueKind → String
  | .beanRef => "bean_ref"
  | .simple => "simple"
  | .array => "array"
  | .code => "code"

/-- The kind of a name in plain data. -/
def ValueKind.ofName? (name : String) : Option ValueKind :=
  [ValueKind.beanRef, .simple, .array, .code].find? fun kind => kind.name == name

namespace Value

mutual

/-- Values are compared by kind and content, down to the leaves. -/
def decideEq : (left right : Value) → Decidable (left = right)
  | .beanRef bean, .beanRef bean' => decidable_of_iff (bean = bean') (by simp)
  | .simple literal, .simple literal' => decidable_of_iff (literal = literal') (by simp)
  | .array entries, .array entries' =>
    match decideEqEntries entries entries' with
    | .isTrue same => .isTrue (by rw [same])
    | .isFalse differ => .isFalse fun equal => differ (Value.array.inj equal)
  | .code expression, .code expression' => decidable_of_iff (expression = expression') (by simp)
  -- Values of different kinds are different.
  | .beanRef _, .simple _ | .beanRef _, .array _ | .beanRef _, .code _ => .isFalse nofun
  | .simple _, .beanRef _ | .simple _, .array _ | .simple _, .code _ => .isFalse nofun
  | .array _, .beanRef _ | .array _, .simple _ | .array _, .code _ => .isFalse nofun
  | .code _, .beanRef _ | .code _, .simple _ | .code _, .array _ => .isFalse nofun

/-- Entries are compared one by one. -/
def decideEqEntries : (left right : List (String × Value)) → Decidable (left = right)
  | [], [] => .isTrue rfl
  | [], _ :: _ => .isFalse nofun
  | _ :: _, [] => .isFalse nofun
  -- The keys are compared first, then the values, then the other entries.
  | (key, value) :: rest, (key', value') :: rest' =>
    if same : key = key' then
      match decideEq value value', decideEqEntries rest rest' with
      | .isTrue first, .isTrue others => .isTrue (by rw [same, first, others])
      | .isFalse differ, _ =>
        .isFalse fun equal => differ (Prod.mk.inj (List.cons.inj equal).1).2
      | _, .isFalse differ => .isFalse fun equal => differ (List.cons.inj equal).2
    else .isFalse fun equal => same (Prod.mk.inj (List.cons.inj equal).1).1

end

instance : DecidableEq Value := decideEq

/-- A property of all values follows when each array has it as soon as its entries do. -/
@[elab_as_elim]
theorem induction {motive : Value → Prop} (beanRef : ∀ bean, motive (.beanRef bean))
    (simple : ∀ literal, motive (.simple literal))
    (array : ∀ entries, (∀ entry ∈ entries, motive entry.2) → motive (.array entries))
    (code : ∀ expression, motive (.code expression)) (value : Value) : motive value :=
  -- The generated principle speaks of lists and pairs too, where the property is taken pointwise.
  Value.rec (motive_2 := fun entries => ∀ entry ∈ entries, motive entry.2)
    (motive_3 := fun entry => motive entry.2) beanRef simple array code (by simp)
    (fun _ _ first others => by simpa using ⟨first, fun key value => others (key, value)⟩)
    (fun _ _ held => held) value

/-- The kind of a value. -/
def kind : Value → ValueKind
  | .beanRef _ => .beanRef
  | .simple _ => .simple
  | .array _ => .array
  | .code _ => .code

/-- The id of the bean that a value refers to. -/
def bean? : Value → Option String
  | .beanRef bean => some bean
  | _ => none

/-- The literal of a value that is one. -/
def literal? : Value → Option Literal
  | .simple literal => some literal
  | _ => none

/-- The entries of an array. -/
def entries? : Value → Option (List (String × Value))
  | .array entries => some entries
  | _ => none

/-- The expression of a value that is code. -/
def code? : Value → Option String
  | .code expression => some expression
  | _ => none

/-- A literal text. -/
def ofText (text : String) : Value :=
  .simple (.text text)

end Value

end BeanWiring
