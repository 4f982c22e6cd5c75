import ParenCalc.Text.CodePoint
/-!
# Runs of code points

A run of code points that pass a test ends where the first one fails it.  `Stops` says that a text
does not carry on the run before it, so that the run is cut off exactly there.
-/
set_option autoImplicit false

namespace ParenCalc.Text

/-- The text does not go on with a code point that passes the test. -/
def Stops (p : CodePoint → Bool) (rest : Text) : Prop := ∀ c, rest.head? = some c → p c = false

variable (p : CodePoint → Bool)

theorem stops_nil : Stops p [] := by
  intro c first
  simp at first

theorem stops_cons (c : CodePoint) (rest : Text) (fails : p c = false) : Stops p (c :: rest) := by
  intro d first
  rw [List.head?_cons, Option.some.injEq] at first
  rwa [← first]

theorem stops_append (t rest : Text) (front : Stops p t) (back : Stops p rest) :
    Stops p (t ++ rest) := by
  cases t with
  | nil => exact back
  | cons c t => exact stops_cons p c (t ++ rest) (front c rfl)

theorem stops_of_append (t rest : Text) (stops : Stops p (t ++ rest)) : Stops p t := by
  intro c first
  apply stops c
  rw [List.head?_append, first]
  rfl

theorem stops_dropWhile (t : Text) : Stops p (t.dropWhile p) := by
  intro c first
  have stopped := List.head?_dropWhile_not p t
  rwa [first] at stopped

theorem takeWhile_append (run rest : Text) (passes : ∀ c ∈ run, p c = true) (stops : Stops p rest) :
    (run ++ rest).takeWhile p = run := by
  rw [List.takeWhile_append_of_pos passes]
  cases rest with
  | nil => simp
  | cons c rest => simp [stops c rfl]

theorem dropWhile_append (run rest : Text) (passes : ∀ c ∈ run, p c = true) (stops : Stops p rest) :
    (run ++ rest).dropWhile p = rest := by
  rw [List.dropWhile_append_of_pos passes]
  cases rest with
  | nil => simp
  | cons c rest => simp [stops c rfl]

/-- A code point that fails the test cuts a run off, wherever the run itself ends. -/
theorem takeWhile_before (run : Text) (c : CodePoint) (rest : Text) (fails : p c = false) :
    (run ++ c :: rest).takeWhile p = run.takeWhile p := by
  induction run with
  | nil => simp [fails]
  | cons d run ih => by_cases passes : p d = true <;> simp [passes, ih]

theorem dropWhile_before (run : Text) (c : CodePoint) (rest : Text) (fails : p c = false) :
    (run ++ c :: rest).dropWhile p = run.dropWhile p ++ c :: rest := by
  induction run with
  | nil => simp [fails]
  | cons d run ih => by_cases passes : p d = true <;> simp [passes, ih]

end ParenCalc.Text
