import ParenCalc.Expr.Build
import ParenCalc.Proofs.Datum.Grammar
/-!
# Well-formed expressions

A text denotes readable data only: admissible numbers, and symbols that do not look like numbers.
What is built from readable data is well formed: its operators exist and have as many operands as
they take, and its definitions bind names that neither are reserved nor look like numbers.
Building loses nothing, and a datum that does not build is refused as malformed or for lack of room.
-/
set_option autoImplicit false

namespace ParenCalc

namespace Datum

mutual

/-- A datum that a text can denote. -/
def Readable : Datum → Prop
  | .number n => n.isAdmissible = true
  | .symbol s => Text.looksNumeric s.name = false
  | .list items => AllReadable items
  | .foreign _ => False

def AllReadable : List Datum → Prop
  | [] => True
  | d :: rest => d.Readable ∧ AllReadable rest

end

theorem isAdmissible_of_ofLiteral? (t : Text) (n : Number)
    (written : Number.ofLiteral? t = some n) :
    n.isAdmissible = true := by
  unfold Number.ofLiteral? at written
  split at written
  · obtain ⟨d, -, chosen⟩ := Option.bind_eq_some_iff.mp written
    dsimp only at chosen
    split at chosen
    · rename_i admissible
      rwa [← Option.some.inj chosen]
    · simp at chosen
  · split at written
    · obtain ⟨i, -, chosen⟩ := Option.bind_eq_some_iff.mp written
      dsimp only at chosen
      split at chosen
      · rename_i admissible
        rwa [← Option.some.inj chosen]
      · simp at chosen
    · simp at written

theorem ofAtom_readable (name : Text) (d : Datum) (value : ofAtom name = .ok d) : d.Readable := by
  unfold ofAtom at value
  split at value
  · split at value
    · rename_i n written
      rw [← Except.ok.inj value]
      exact isAdmissible_of_ofLiteral? name n written
    · simp at value
  · rename_i notNumeric
    split at value
    · rename_i s named
      unfold Symbol.ofText? at named
      split at named
      · rw [← Except.ok.inj value, ← Option.some.inj named]
        simpa [Readable] using notNumeric
      · simp at named
    · simp at value

end Datum

mutual

theorem readable_of_renders :
    ∀ (tokens : List Token) (d : Datum), Renders tokens d → d.Readable
  | _, _, .atom name d value => Datum.ofAtom_readable name d value
  | _, _, .list tokens items parts => by
      simpa only [Datum.Readable] using readable_of_rendersAll tokens items parts

theorem readable_of_rendersAll :
    ∀ (tokens : List Token) (data : List Datum), RendersAll tokens data → Datum.AllReadable data
  | _, _, .nil => trivial
  | _, _, .cons first rest d data head tail =>
      ⟨readable_of_renders first d head, readable_of_rendersAll rest data tail⟩

end

theorem Datum.readable_of_read (text : Text) (d : Datum) (run : Datum.read text = .ok d) :
    d.Readable :=
  readable_of_renders _ d ((Datum.read_eq_ok_iff text d).mp run).2

/-- A name that a text can bind. -/
def Symbol.Bindable (s : Symbol) : Prop := s.isReserved = false ∧ Text.looksNumeric s.name = false

/-- The ways in which building fails. -/
def Failure.IsRefusal (failure : Failure) : Prop :=
  failure = .misuse .noRoom ∨ ∃ cause, failure = .fault (.malformed cause)

namespace Expr

mutual

/-- An expression that a text can denote. -/
def WellFormed : Expr → Prop
  | .literal n => n.isAdmissible = true
  | .reference x => Text.looksNumeric x.name = false
  | .definition x value => x.Bindable ∧ value.WellFormed
  | .conditional test yes no => test.WellFormed ∧ yes.WellFormed ∧ no.WellFormed
  | .application x arguments =>
    (∃ op, Operator.ofSymbol? x = some op ∧ op.accepts arguments.length = true) ∧
      AllWellFormed arguments
  | .alien _ => False

def AllWellFormed : List Expr → Prop
  | [] => True
  | e :: rest => e.WellFormed ∧ AllWellFormed rest

end

theorem length_toData (arguments : List Expr) : (toData arguments).length = arguments.length := by
  induction arguments with
  | nil => rfl
  | cons e rest ih => rw [toData, List.length_cons, ih, List.length_cons]

/-- What building a datum comes to: an expression that is written as that datum, or a refusal. -/
def Builds (d : Datum) : Except Failure Expr → Prop
  | .ok e => e.toDatum = d ∧ (d.Readable → e.WellFormed)
  | .error failure => failure.IsRefusal

def BuildsAll (data : List Datum) : Except Failure (List Expr) → Prop
  | .ok arguments => toData arguments = data ∧ (Datum.AllReadable data → AllWellFormed arguments)
  | .error failure => failure.IsRefusal

theorem builds_malformed (d : Datum) (cause : Malformed) : Builds d (Failure.malformed cause) :=
  .inr ⟨cause, rfl⟩

theorem builds_noRoom (d : Datum) : Builds d (.error (.misuse .noRoom)) := .inl rfl

theorem builds_application (head : Symbol) (op : Operator)
    (found : Operator.ofSymbol? head = some op)
    (tail : List Datum) (enough : op.accepts tail.length = true)
    (result : Except Failure (List Expr)) (parts : BuildsAll tail result) :
    Builds (.list (.symbol head :: tail)) (result.map (application head)) := by
  cases result with
  | error failure => exact parts
  | ok arguments =>
      obtain ⟨same, wellFormed⟩ := parts
      have count : arguments.length = tail.length := by rw [← length_toData, same]
      refine ⟨by rw [toDatum, same], fun readable => ⟨⟨op, found, ?_⟩, wellFormed readable.2⟩⟩
      rw [count, enough]

theorem buildDefinition_of_length (room : Nat) (tail : List Datum) (wrong : tail.length ≠ 2) :
    buildDefinition room tail = Failure.malformed .defineShape := by
  unfold buildDefinition
  split
  · simp at wrong
  · simp at wrong
  · rfl

theorem buildConditional_of_length (room : Nat) (tail : List Datum) (wrong : tail.length ≠ 3) :
    buildConditional room tail = Failure.malformed .condShape := by
  unfold buildConditional
  split
  · simp at wrong
  · rfl

mutual

theorem builds_build (room : Nat) : ∀ d : Datum, Builds d (build room d)
  | .number n => by
      unfold build
      split
      · exact builds_noRoom _
      · exact ⟨rfl, id⟩
  | .symbol s => by
      unfold build
      split
      · exact builds_noRoom _
      · exact ⟨rfl, id⟩
  | .foreign v => by
      unfold build
      split
      · exact builds_noRoom _
      · cases v <;> exact builds_malformed _ _
  | .list [] => by
      unfold build
      split
      · exact builds_noRoom _
      · exact builds_malformed _ _
  | .list (.symbol head :: tail) => by
      have definition := builds_buildDefinition (room - 2) tail
      have conditional := builds_buildConditional (room - 2) tail
      have parts := builds_buildAll (room - 3) tail
      unfold build
      split
      · exact builds_noRoom _
      · dsimp only
        split
        · rename_i isDefine
          rwa [isDefine]
        · split
          · rename_i isCond
            rwa [isCond]
          · split
            · exact builds_malformed _ _
            · rename_i op found
              split
              · rename_i enough
                exact builds_application head op found tail enough _ parts
              · exact builds_malformed _ _
  | .list (.number _ :: _) | .list (.list _ :: _) | .list (.foreign _ :: _) => by
      unfold build
      split
      · exact builds_noRoom _
      · dsimp only
        split
        · exact builds_malformed _ _
        · exact builds_noRoom _

theorem builds_buildDefinition (room : Nat) :
    ∀ tail : List Datum, Builds (.list (.symbol .define :: tail)) (buildDefinition room tail)
  | [.symbol name, value] => by
      have built := builds_build room value
      unfold buildDefinition
      split
      · exact builds_malformed _ _
      · rename_i free
        cases result : build room value with
        | error failure =>
            rw [result] at built
            exact built
        | ok e =>
            rw [result] at built
            refine ⟨by rw [toDatum, built.1], fun readable => ⟨⟨?_, readable.2.1⟩, ?_⟩⟩
            · simpa using free
            · exact built.2 readable.2.2.1
  | [.number _, _] | [.list _, _] | [.foreign _, _] => by
      unfold buildDefinition
      split
      · exact builds_malformed _ _
      · exact builds_noRoom _
  | [] | [_] | _ :: _ :: _ :: _ => by
      rw [buildDefinition_of_length room _ (by simp)]
      exact builds_malformed _ _

theorem builds_buildConditional (room : Nat) :
    ∀ tail : List Datum, Builds (.list (.symbol .cond :: tail)) (buildConditional room tail)
  | [test, yes, no] => by
      have testBuilt := builds_build room test
      have yesBuilt := builds_build room yes
      have noBuilt := builds_build room no
      unfold buildConditional
      cases testResult : build room test with
      | error failure =>
          rw [testResult] at testBuilt
          exact testBuilt
      | ok testExpr =>
          rw [testResult] at testBuilt
          cases yesResult : build room yes with
          | error failure =>
              rw [yesResult] at yesBuilt
              exact yesBuilt
          | ok yesExpr =>
              rw [yesResult] at yesBuilt
              cases noResult : build room no with
              | error failure =>
                  rw [noResult] at noBuilt
                  exact noBuilt
              | ok noExpr =>
                  rw [noResult] at noBuilt
                  refine ⟨by rw [toDatum, testBuilt.1, yesBuilt.1, noBuilt.1], ?_⟩
                  rintro ⟨-, testReadable, yesReadable, noReadable, -⟩
                  exact ⟨testBuilt.2 testReadable, yesBuilt.2 yesReadable, noBuilt.2 noReadable⟩
  | [] | [_] | [_, _] | _ :: _ :: _ :: _ :: _ => by
      rw [buildConditional_of_length room _ (by simp)]
      exact builds_malformed _ _

theorem builds_buildAll (room : Nat) :
    ∀ data : List Datum, BuildsAll data (buildAll room data)
  | [] => ⟨rfl, id⟩
  | d :: rest => by
      have built := builds_build room d
      have restBuilt := builds_buildAll room rest
      unfold buildAll
      cases result : build room d with
      | error failure =>
          rw [result] at built
          exact built
      | ok e =>
          rw [result] at built
          cases restResult : buildAll room rest with
          | error failure =>
              rw [restResult] at restBuilt
              exact restBuilt
          | ok arguments =>
              rw [restResult] at restBuilt
              refine ⟨by rw [toData, built.1, restBuilt.1], ?_⟩
              rintro ⟨readable, restReadable⟩
              exact ⟨built.2 readable, restBuilt.2 restReadable⟩

end

theorem toDatum_of_build (room : Nat) (d : Datum) (e : Expr) (run : build room d = .ok e) :
    e.toDatum = d := by
  have built := builds_build room d
  rw [run] at built
  exact built.1

theorem wellFormed_of_build (room : Nat) (d : Datum) (e : Expr) (readable : d.Readable)
    (run : build room d = .ok e) : e.WellFormed := by
  have built := builds_build room d
  rw [run] at built
  exact built.2 readable

theorem isRefusal_of_build (room : Nat) (d : Datum) (failure : Failure)
    (run : build room d = .error failure) : failure.IsRefusal := by
  have built := builds_build room d
  rw [run] at built
  exact built

end Expr

end ParenCalc
