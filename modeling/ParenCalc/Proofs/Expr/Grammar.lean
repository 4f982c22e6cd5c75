import Mathlib.Data.List.Basic
import ParenCalc.Fault
/-!
# The grammar of expressions

Which data are expressions can be said without saying how one is built: by the names of their heads
and the count of their parts.  It comes to the same that no node has a fault of its own.  Nodes are
taken from the root and from the left; the head of a form and the name that a definition binds are
nodes too, without faults of their own.
-/
set_option autoImplicit false

namespace ParenCalc

/-! ## Names -/

def arithmeticNames : List Text := ["+", "-", "*", "/"]

def comparisonNames : List Text := [">", "<", ">=", "<=", "="]

def reservedNames : List Text := "define" :: "if" :: (arithmeticNames ++ comparisonNames)

namespace Symbol

theorem mem_arithmeticNames_iff (x : Symbol) :
    x.name ∈ arithmeticNames ↔ ∃ op : Arithmetic, op.symbol = x := by
  constructor
  · intro member
    simp only [arithmeticNames, List.mem_cons, List.not_mem_nil, or_false] at member
    simp only [eq_iff_name]
    rcases member with plus | minus | star | slash
    · exact ⟨.add, plus.symm⟩
    · exact ⟨.sub, minus.symm⟩
    · exact ⟨.mul, star.symm⟩
    · exact ⟨.div, slash.symm⟩
  · rintro ⟨op, rfl⟩
    cases op <;> decide

theorem mem_comparisonNames_iff (x : Symbol) :
    x.name ∈ comparisonNames ↔ ∃ op : Comparison, op.symbol = x := by
  constructor
  · intro member
    simp only [comparisonNames, List.mem_cons, List.not_mem_nil, or_false] at member
    simp only [eq_iff_name]
    rcases member with greater | less | greaterEq | lessEq | equal
    · exact ⟨.greater, greater.symm⟩
    · exact ⟨.less, less.symm⟩
    · exact ⟨.greaterEq, greaterEq.symm⟩
    · exact ⟨.lessEq, lessEq.symm⟩
    · exact ⟨.equal, equal.symm⟩
  · rintro ⟨op, rfl⟩
    cases op <;> decide

theorem isSome_ofSymbol?_iff (x : Symbol) :
    (Operator.ofSymbol? x).isSome = true ↔
      x.name ∈ arithmeticNames ∨ x.name ∈ comparisonNames := by
  rw [mem_arithmeticNames_iff, mem_comparisonNames_iff, Option.isSome_iff_exists]
  constructor
  · rintro ⟨op, found⟩
    have named := Operator.symbol_of_ofSymbol? x op found
    cases op with
    | arithmetic op => exact .inl ⟨op, named⟩
    | comparison op => exact .inr ⟨op, named⟩
  · rintro (⟨op, rfl⟩ | ⟨op, rfl⟩)
    · exact ⟨_, Operator.ofSymbol?_symbol (.arithmetic op)⟩
    · exact ⟨_, Operator.ofSymbol?_symbol (.comparison op)⟩

/-- The names that no definition binds are those of the forms and of the operators. -/
theorem isReserved_iff (x : Symbol) : x.isReserved = true ↔ x.name ∈ reservedNames := by
  simp only [isReserved, Bool.or_eq_true, decide_eq_true_eq, isSome_ofSymbol?_iff, eq_iff_name,
    reservedNames, List.mem_cons, List.mem_append]
  exact or_assoc

end Symbol

/-! ## Data that are expressions -/

namespace Datum

/-- A datum that is an expression, by the names of its heads and the count of its parts. -/
inductive Expressible : Datum → Prop
  | number (n : Number) : Expressible (.number n)
  | symbol (x : Symbol) : Expressible (.symbol x)
  | definition (head name : Symbol) (value : Datum) (named : head.name = "define")
      (free : name.name ∉ reservedNames) (part : Expressible value) :
      Expressible (.list [.symbol head, .symbol name, value])
  | conditional (head : Symbol) (test yes no : Datum) (named : head.name = "if")
      (testPart : Expressible test) (yesPart : Expressible yes) (noPart : Expressible no) :
      Expressible (.list [.symbol head, test, yes, no])
  | arithmetic (head : Symbol) (operands : List Datum) (named : head.name ∈ arithmeticNames)
      (enough : 2 ≤ operands.length) (parts : ∀ d ∈ operands, Expressible d) :
      Expressible (.list (.symbol head :: operands))
  | comparison (head : Symbol) (left right : Datum) (named : head.name ∈ comparisonNames)
      (leftPart : Expressible left) (rightPart : Expressible right) :
      Expressible (.list [.symbol head, left, right])

theorem depth_le_of_mem (d : Datum) (items : List Datum) (member : d ∈ items) :
    d.depth ≤ depthOfItems items := by
  induction items with
  | nil => simp at member
  | cons first rest ih =>
      rw [depthOfItems]
      rcases List.mem_cons.mp member with rfl | later
      · exact Nat.le_max_left _ _
      · exact Nat.le_trans (ih later) (Nat.le_max_right _ _)

/-! ## Faults of single nodes -/

mutual

/-- A datum and all data in it, from the root and from the left. -/
def nodes : Datum → List Datum
  | .list items => .list items :: nodesOfItems items
  | d => [d]

def nodesOfItems : List Datum → List Datum
  | [] => []
  | d :: rest => d.nodes ++ nodesOfItems rest

end

def definitionFault? : List Datum → Option Malformed
  | [.symbol name, _] => if name.isReserved then some (.reserved name) else none
  | [target, _] => some (.defineTarget target)
  | _ => some .defineShape

theorem definitionFault?_of_length (tail : List Datum) (wrong : tail.length ≠ 2) :
    definitionFault? tail = some .defineShape := by
  unfold definitionFault?
  split
  · simp at wrong
  · simp at wrong
  · rfl

/-- The fault of a form by its head and by the count and kind of its parts. -/
def formFault? (head : Symbol) (tail : List Datum) : Option Malformed :=
  if head = Symbol.define then definitionFault? tail
  else if head = Symbol.cond then if tail.length = 3 then none else some .condShape
  else
    match Operator.ofSymbol? head with
    | none => some (.unknownHead head)
    | some op => if op.accepts tail.length then none else some (.arity op tail.length)

/-- The fault of a datum itself, whatever the faults of its parts. -/
def ownFault? : Datum → Option Malformed
  | .number _ => none
  | .symbol _ => none
  | .foreign (.truth b) => some (.unsupportedLiteral b)
  | .foreign v => some (.unbuildable (.foreign v))
  | .list [] => some .emptyForm
  | .list (.symbol head :: tail) => formFault? head tail
  | .list (head :: _) => some (.headNoSymbol head)

/-- The fault of the first node that has one. -/
def firstFault? (d : Datum) : Option Malformed := d.nodes.findSome? ownFault?

def firstFaultOfItems? (items : List Datum) : Option Malformed :=
  (nodesOfItems items).findSome? ownFault?

@[simp]
theorem firstFault?_symbol (x : Symbol) : (symbol x).firstFault? = none := rfl

theorem firstFault?_list (items : List Datum) :
    (list items).firstFault? = (list items).ownFault?.or (firstFaultOfItems? items) := by
  rw [firstFault?, nodes, List.findSome?_cons, firstFaultOfItems?]
  cases (list items).ownFault? <;> rfl

theorem firstFault?_form (head : Symbol) (tail : List Datum) :
    (list (.symbol head :: tail)).firstFault? =
      (formFault? head tail).or (firstFaultOfItems? tail) := firstFault?_list _

@[simp]
theorem firstFaultOfItems?_nil : firstFaultOfItems? [] = none := rfl

@[simp]
theorem firstFaultOfItems?_cons (d : Datum) (rest : List Datum) :
    firstFaultOfItems? (d :: rest) = d.firstFault?.or (firstFaultOfItems? rest) := by
  rw [firstFaultOfItems?, nodesOfItems, List.findSome?_append]
  rfl

theorem firstFaultOfItems?_eq_none_iff (items : List Datum) :
    firstFaultOfItems? items = none ↔ ∀ d ∈ items, d.firstFault? = none := by
  induction items with
  | nil => simp
  | cons d rest ih =>
      rw [firstFaultOfItems?_cons, Option.or_eq_none_iff, ih, List.forall_mem_cons]

/-- A form without a fault of its own is a definition, a conditional or an operation, of the right
shape. -/
theorem form_of_noFault (head : Symbol) (tail : List Datum) (clear : formFault? head tail = none) :
    (head = Symbol.define ∧ ∃ name value, tail = [.symbol name, value] ∧
      name.name ∉ reservedNames) ∨
    (head = Symbol.cond ∧ ∃ test yes no, tail = [test, yes, no]) ∨
    ∃ op, Operator.ofSymbol? head = some op ∧ op.accepts tail.length = true := by
  unfold formFault? at clear
  split at clear
  · rename_i isDefine
    unfold definitionFault? at clear
    split at clear
    · rename_i name value
      split at clear
      · simp at clear
      · rename_i free
        exact .inl ⟨isDefine, name, value, rfl, free ∘ (Symbol.isReserved_iff name).mpr⟩
    · simp at clear
    · simp at clear
  · split at clear
    · rename_i isCond
      split at clear
      · rename_i three
        exact .inr (.inl ⟨isCond, List.length_eq_three.mp three⟩)
      · simp at clear
    · split at clear
      · simp at clear
      · rename_i op found
        split at clear
        · rename_i accepted
          exact .inr (.inr ⟨op, found, accepted⟩)
        · simp at clear

theorem formFault?_of_operator (op : Operator) (tail : List Datum)
    (accepted : op.accepts tail.length = true) : formFault? op.symbol tail = none := by
  have notDefine : op.symbol ≠ Symbol.define := by
    rcases op with op | op <;> cases op <;> decide
  have notCond : op.symbol ≠ Symbol.cond := by
    rcases op with op | op <;> cases op <;> decide
  rw [formFault?, if_neg notDefine, if_neg notCond, Operator.ofSymbol?_symbol]
  simp only [accepted, if_true]

theorem expressible_of_operation (op : Operator) (tail : List Datum)
    (accepted : op.accepts tail.length = true) (parts : ∀ d ∈ tail, d.Expressible) :
    (list (.symbol op.symbol :: tail)).Expressible := by
  cases op with
  | arithmetic op =>
      have named := (Symbol.mem_arithmeticNames_iff op.symbol).mpr ⟨op, rfl⟩
      exact .arithmetic _ tail named (of_decide_eq_true accepted) parts
  | comparison op =>
      have named := (Symbol.mem_comparisonNames_iff op.symbol).mpr ⟨op, rfl⟩
      obtain ⟨left, right, rfl⟩ := List.length_eq_two.mp (of_decide_eq_true accepted)
      exact .comparison _ left right named (parts left (by simp)) (parts right (by simp))

theorem firstFault?_of_expressible (d : Datum) (expressible : d.Expressible) :
    d.firstFault? = none := by
  induction expressible with
  | number n => rfl
  | symbol x => rfl
  | definition head name value named free part ih =>
      obtain rfl : head = Symbol.define := (Symbol.eq_iff_name _ _).mpr named
      have own : formFault? Symbol.define [.symbol name, value] = none :=
        if_neg (free ∘ (Symbol.isReserved_iff name).mp)
      rw [firstFault?_form, own]
      simp [ih]
  | conditional head test yes no named testPart yesPart noPart testIh yesIh noIh =>
      obtain rfl : head = Symbol.cond := (Symbol.eq_iff_name _ _).mpr named
      have own : formFault? Symbol.cond [test, yes, no] = none := rfl
      rw [firstFault?_form, own]
      simp [testIh, yesIh, noIh]
  | arithmetic head operands named enough parts ih =>
      obtain ⟨op, rfl⟩ := (Symbol.mem_arithmeticNames_iff head).mp named
      have own : formFault? op.symbol operands = none :=
        formFault?_of_operator (.arithmetic op) operands (decide_eq_true enough)
      rw [firstFault?_form, own, Option.none_or]
      exact (firstFaultOfItems?_eq_none_iff operands).mpr ih
  | comparison head left right named leftPart rightPart leftIh rightIh =>
      obtain ⟨op, rfl⟩ := (Symbol.mem_comparisonNames_iff head).mp named
      have own : formFault? op.symbol [left, right] = none :=
        formFault?_of_operator (.comparison op) [left, right] rfl
      rw [firstFault?_form, own]
      simp [leftIh, rightIh]

mutual

theorem expressible_of_noFault : ∀ d : Datum, d.firstFault? = none → d.Expressible
  | .number n, _ => .number n
  | .symbol x, _ => .symbol x
  | .foreign v, clear => by cases v <;> simp [firstFault?, nodes, ownFault?] at clear
  | .list [], clear => by simp [firstFault?, nodes, ownFault?] at clear
  | .list (.symbol head :: tail), clear => by
      rw [firstFault?_form, Option.or_eq_none_iff] at clear
      have parts := expressible_of_noFaults tail clear.2
      obtain ⟨rfl, name, value, rfl, free⟩ | ⟨rfl, test, yes, no, rfl⟩ | ⟨op, found, accepted⟩ :=
        form_of_noFault head tail clear.1
      · exact .definition _ name value rfl free (parts value (by simp))
      · exact .conditional _ test yes no rfl (parts test (by simp)) (parts yes (by simp))
          (parts no (by simp))
      · rw [← Operator.symbol_of_ofSymbol? head op found]
        exact expressible_of_operation op tail accepted parts
  | .list (.number _ :: _), clear | .list (.list _ :: _), clear
  | .list (.foreign _ :: _), clear => by simp [firstFault?_list, ownFault?] at clear

theorem expressible_of_noFaults : ∀ items : List Datum,
    firstFaultOfItems? items = none → ∀ d ∈ items, d.Expressible
  | [], _ => by simp
  | d :: rest, clear => by
      rw [firstFaultOfItems?_cons, Option.or_eq_none_iff] at clear
      rw [List.forall_mem_cons]
      exact ⟨expressible_of_noFault d clear.1, expressible_of_noFaults rest clear.2⟩

end

/-- The data that are expressions are those in which no node has a fault. -/
theorem expressible_iff_noFault (d : Datum) : d.Expressible ↔ d.firstFault? = none :=
  ⟨d.firstFault?_of_expressible, d.expressible_of_noFault⟩

end Datum

end ParenCalc
