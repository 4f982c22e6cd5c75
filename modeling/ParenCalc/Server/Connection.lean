import ParenCalc.Server.Reply
import ParenCalc.Text.Blank
/-!
# Connections

Bytes arrive in portions that have nothing to do with lines.  Each complete line is answered in
order, blank lines are passed over, and bytes after the last line end are never looked at.  A
connection ends with its input, with a reset, with a reply that cannot be sent, and with a line that
goes past the limits of reading; other connections do not notice.
-/
set_option autoImplicit false

namespace ParenCalc

inductive Portion
  | bytes (bytes : List UInt8)
  | reset

/-- A client: the portions it sends, and how many replies it takes before sending to it fails. -/
structure Client where
  portions : List Portion
  maxReplies : Option Nat

namespace Connection

/-- The complete lines of some bytes, without their line ends, and the bytes after them. -/
def splitLines : List UInt8 → List (List UInt8) × List UInt8
  | [] => ([], [])
  | b :: rest =>
    let (lines, tail) := splitLines rest
    if b = 10 then ([] :: lines, tail)
    else
      match lines with
      | [] => ([], b :: tail)
      | line :: more => ((b :: line) :: more, tail)

/-- No byte is lost: the lines with their line ends and the bytes after them are the bytes. -/
theorem flatten_splitLines (bytes : List UInt8) :
    ((splitLines bytes).1.map (· ++ [10])).flatten ++ (splitLines bytes).2 = bytes := by
  induction bytes with
  | nil => rfl
  | cons b rest ih =>
      by_cases h : b = 10
      · simpa [splitLines, h] using ih
      · rw [splitLines]
        cases lines : (splitLines rest).1 with
        | nil =>
            rw [lines] at ih
            simpa [lines, h] using ih
        | cons line more =>
            rw [lines] at ih
            simpa [lines, h] using ih

/-- The bytes after the last line end contain none. -/
theorem not_mem_tail_splitLines (bytes : List UInt8) : 10 ∉ (splitLines bytes).2 := by
  induction bytes with
  | nil => simp [splitLines]
  | cons b rest ih =>
      by_cases h : b = 10
      · simpa [splitLines, h] using ih
      · rw [splitLines]
        have h' : ¬ 10 = b := fun e => h e.symm
        cases lines : (splitLines rest).1 <;> simpa [lines, h, h'] using ih

/-- Lines do not depend on where the bytes were cut: what follows a cut continues the bytes that
were after the last line end. -/
theorem splitLines_append (first second : List UInt8) :
    splitLines (first ++ second) =
      ((splitLines first).1 ++ (splitLines ((splitLines first).2 ++ second)).1,
        (splitLines ((splitLines first).2 ++ second)).2) := by
  induction first with
  | nil => simp [splitLines]
  | cons b rest ih =>
      by_cases h : b = 10
      · simp [splitLines, h, ih]
      · rw [List.cons_append, splitLines, ih]
        cases lines : (splitLines rest).1 <;> simp [splitLines, lines, h]

def trim (line : List UInt8) : List UInt8 :=
  ((line.dropWhile isBlankByte).reverse.dropWhile isBlankByte).reverse

/-- What came of some lines: the replies sent, the registry, and how many more replies the client
takes, or nothing when the connection has ended. -/
structure Progress where
  sent : List Text
  registry : Registry
  allowance : Option (Option Nat)

def spend : Option Nat → Option (Option Nat)
  | none => some none
  | some 0 => none
  | some (n + 1) => some (some n)

def answerLines (allowance : Option Nat) : List (List UInt8) → Registry → Progress
  | [], r => ⟨[], r, some allowance⟩
  | line :: rest, r =>
    if trim line = [] then answerLines allowance rest r
    else
      match r.answerLine (trim line) with
      | (.error _, r) => ⟨[], r, none⟩
      | (.ok reply, r) =>
        match spend allowance with
        | none => ⟨[], r, none⟩
        | some left =>
          let later := answerLines left rest r
          { later with sent := reply :: later.sent }

/-- Serves a client that has sent the bytes `pending` of an incomplete line. -/
def serveFrom (allowance : Option Nat) (pending : List UInt8) :
    List Portion → Registry → List Text × Registry
  | [], r => ([], r)
  | .reset :: _, r => ([], r)
  | .bytes bytes :: rest, r =>
    if bytes = [] then ([], r)
    else
      let (lines, tail) := splitLines (pending ++ bytes)
      let progress := answerLines allowance lines r
      match progress.allowance with
      | none => (progress.sent, progress.registry)
      | some left =>
        let (sent, r) := serveFrom left tail rest progress.registry
        (progress.sent ++ sent, r)

def serve (client : Client) (r : Registry) : List Text × Registry :=
  serveFrom client.maxReplies [] client.portions r

def serveAll : List Client → Registry → List (List Text) × Registry
  | [], r => ([], r)
  | client :: rest, r =>
    let (sent, r) := serve client r
    let (more, r) := serveAll rest r
    (sent :: more, r)

end Connection

end ParenCalc
