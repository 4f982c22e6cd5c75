import ParenCalc.Datum.Atom
import ParenCalc.Token
/-!
# Reading data

A scan is also a cursor: reading takes tokens off its front, and the fault of a scan is met once,
when the tokens before it have run out.  The lists that are open at some point are kept on a stack,
so that the nesting of a text costs no room.
-/
set_option autoImplicit false

namespace ParenCalc

namespace Scan

/-- The next token, which stays where it is; nothing at the end. -/
def peek (s : Scan) : Except Malformed (Option Token) × Scan :=
  match s.tokens with
  | t :: _ => (.ok (some t), s)
  | [] =>
    match s.fault with
    | some fault => (.error fault, ⟨[], none⟩)
    | none => (.ok none, s)

/-- The next token, taken off; nothing at the end. -/
def advance (s : Scan) : Except Malformed (Option Token) × Scan :=
  match s.tokens with
  | t :: rest => (.ok (some t), ⟨rest, s.fault⟩)
  | [] => s.peek

/-- Reads on inside a list that has the items `done`, in reverse, within lists that have the items
`outer`; `fault` is what the tokens end with. -/
def collect (fault : Option Malformed) (done : List Datum) (outer : List (List Datum)) :
    List Token → Except Malformed Datum × Scan
  | [] => (.error (fault.getD .unclosed), ⟨[], none⟩)
  | .opening :: rest => collect fault [] (done :: outer) rest
  | .closing :: rest =>
    match outer with
    | [] => (.ok (.list done.reverse), ⟨rest, fault⟩)
    | above :: outer => collect fault (.list done.reverse :: above) outer rest
  | .atom name :: rest =>
    match Datum.ofAtom name with
    | .error cause => (.error cause, ⟨rest, fault⟩)
    | .ok d => collect fault (d :: done) outer rest

/-- The next datum; nothing at the end.  A parenthesis that closes nothing stays where it is. -/
def next (s : Scan) : Except Malformed (Option Datum) × Scan :=
  match s.tokens with
  | .atom name :: rest => ((Datum.ofAtom name).map some, ⟨rest, s.fault⟩)
  | .closing :: _ => (.error .unopened, s)
  | .opening :: rest =>
    let (result, after) := collect s.fault [] [] rest
    (result.map some, after)
  | [] =>
    match s.fault with
    | some fault => (.error fault, ⟨[], none⟩)
    | none => (.ok none, s)

theorem length_collect_le (fault : Option Malformed) (done : List Datum)
    (outer : List (List Datum)) (tokens : List Token) :
    (collect fault done outer tokens).2.tokens.length ≤ tokens.length := by
  induction tokens generalizing done outer with
  | nil => simp [collect]
  | cons t rest ih =>
      cases t with
      | opening => exact Nat.le_succ_of_le (ih _ _)
      | closing =>
          cases outer with
          | nil => simp [collect]
          | cons above outer => exact Nat.le_succ_of_le (ih _ _)
      | atom name =>
          unfold collect
          split
          · simp
          · exact Nat.le_succ_of_le (ih _ _)

theorem length_next_lt (s after : Scan) (d : Datum) (h : s.next = (.ok (some d), after)) :
    after.tokens.length < s.tokens.length := by
  obtain ⟨tokens, fault⟩ := s
  cases tokens with
  | nil => cases fault <;> simp [next] at h
  | cons t rest =>
      cases t with
      | opening =>
          simp only [next, Prod.mk.injEq] at h
          rw [← h.2]
          exact Nat.lt_succ_of_le (length_collect_le _ _ _ _)
      | closing => simp [next] at h
      | atom name =>
          simp only [next, Prod.mk.injEq] at h
          rw [← h.2]
          exact Nat.lt_succ_self _

end Scan

/-- The data read one after another: those before the first fault, the fault, and what is left. -/
structure Forms where
  data : List Datum
  fault : Option Malformed
  rest : Scan

def Scan.forms (s : Scan) : Forms :=
  match _h : s.next with
  | (.ok (some d), after) =>
    let more := forms after
    ⟨d :: more.data, more.fault, more.rest⟩
  | (.ok none, after) => ⟨[], none, after⟩
  | (.error cause, after) => ⟨[], some cause, after⟩
termination_by s.tokens.length
decreasing_by exact length_next_lt s after d _h

def Forms.all (f : Forms) : Except Malformed (List Datum) :=
  match f.fault with
  | some cause => .error cause
  | none => .ok f.data

namespace Datum

def read (text : Text) : Except Malformed Datum :=
  match (Scan.ofText text).next with
  | (.error cause, _) => .error cause
  | (.ok none, _) => .error (.empty text)
  | (.ok (some d), after) =>
    match after.peek.1 with
    | .error cause => .error cause
    | .ok none => .ok d
    | .ok (some .closing) => .error .unopened
    | .ok (some token) => .error (.trailing token.lexeme)

def readAll (text : Text) : Except Malformed (List Datum) := (Scan.ofText text).forms.all

end Datum

end ParenCalc
