import ParenCalc.Proofs.Server.LineReplies
import ParenCalc.Proofs.Text.Utf8
import ParenCalc.Server.Connection
/-!
# Requests arrive in portions

A client's bytes arrive in portions, and the requests among them are the lines that are not blank.
Where the bytes were cut makes no difference.  Each request is handled in its turn, its reply is a
line of its own, and a client that fails takes nothing from the clients after it.
-/
set_option autoImplicit false

namespace ParenCalc

/-! ## Lines of bytes -/

/-- Some bytes are these lines, each with a line feed after it, and the tail after the last line
feed. -/
structure Framed (bytes : List UInt8) (lines : List (List UInt8)) (tail : List UInt8) : Prop where
  whole : (lines.map (· ++ [10])).flatten ++ tail = bytes
  inLine : ∀ line ∈ lines, 10 ∉ line
  inTail : 10 ∉ tail

namespace Connection

theorem not_mem_line_splitLines (bytes : List UInt8) : ∀ line ∈ (splitLines bytes).1, 10 ∉ line := by
  induction bytes with
  | nil => simp [splitLines]
  | cons b rest ih =>
      by_cases ends : b = 10
      · simpa [splitLines, ends] using ih
      · have other : ¬ 10 = b := fun same => ends same.symm
        rw [splitLines]
        cases lines : (splitLines rest).1 with
        | nil => simp [ends, lines]
        | cons line more =>
            rw [lines] at ih
            simpa [ends, lines, other] using ih

theorem framed_splitLines (bytes : List UInt8) :
    Framed bytes (splitLines bytes).1 (splitLines bytes).2 :=
  ⟨flatten_splitLines bytes, not_mem_line_splitLines bytes, not_mem_tail_splitLines bytes⟩

theorem splitLines_of_not_mem (tail : List UInt8) (unended : 10 ∉ tail) :
    splitLines tail = ([], tail) := by
  induction tail with
  | nil => rfl
  | cons b rest ih =>
      have goesOn : b ≠ 10 := fun same => unended (same ▸ List.mem_cons_self)
      have later := ih fun member => unended (List.mem_cons_of_mem b member)
      simp [splitLines, later, goesOn]

theorem splitLines_line (line rest : List UInt8) (unended : 10 ∉ line) :
    splitLines (line ++ 10 :: rest) = (line :: (splitLines rest).1, (splitLines rest).2) := by
  induction line with
  | nil => simp [splitLines]
  | cons b more ih =>
      have goesOn : b ≠ 10 := fun same => unended (same ▸ List.mem_cons_self)
      have later := ih fun member => unended (List.mem_cons_of_mem b member)
      simp [splitLines, later, goesOn]

/-- Bytes are lines and a tail in one way only. -/
theorem splitLines_of_framed (bytes : List UInt8) (lines : List (List UInt8)) (tail : List UInt8)
    (framed : Framed bytes lines tail) : splitLines bytes = (lines, tail) := by
  obtain ⟨rfl, inLine, inTail⟩ := framed
  induction lines with
  | nil => simpa using splitLines_of_not_mem tail inTail
  | cons line rest ih =>
      have later := ih fun other member => inLine other (List.mem_cons_of_mem line member)
      have first := splitLines_line line ((rest.map (· ++ [10])).flatten ++ tail)
        (inLine line List.mem_cons_self)
      rw [later] at first
      simpa using first

/-! ## Portions -/

/-- The bytes that arrive before the connection ends; an empty portion is the end of the input. -/
def arriving : List Portion → List UInt8
  | [] => []
  | .reset :: _ => []
  | .bytes bytes :: rest => if bytes = [] then [] else bytes ++ arriving rest

theorem arriving_of_cut (cut : List (List UInt8)) (nonempty : ∀ portion ∈ cut, portion ≠ []) :
    arriving (cut.map .bytes) = cut.flatten := by
  induction cut with
  | nil => rfl
  | cons portion rest ih =>
      have later := ih fun other member => nonempty other (List.mem_cons_of_mem portion member)
      have some := nonempty portion List.mem_cons_self
      rw [List.map_cons, arriving, if_neg some, later, List.flatten_cons]

/-- What comes of a line: it is passed over, it ends the connection, or its reply is sent. -/
inductive LineTurn (allowance : Option Nat) (line : List UInt8) (r : Registry) : Prop
  | blank (passed : trim line = [])
      (step : ∀ rest, answerLines allowance (line :: rest) r = answerLines allowance rest r)
  | unanswered (overrun : Json.Overrun) (after : Registry) (request : trim line ≠ [])
      (answer : r.answerLine (trim line) = (.error overrun, after))
      (step : ∀ rest, answerLines allowance (line :: rest) r = ⟨[], after, none⟩)
  | unsent (reply : Text) (after : Registry) (request : trim line ≠ [])
      (answer : r.answerLine (trim line) = (.ok reply, after)) (spent : spend allowance = none)
      (step : ∀ rest, answerLines allowance (line :: rest) r = ⟨[], after, none⟩)
  | sent (reply : Text) (after : Registry) (left : Option Nat) (request : trim line ≠ [])
      (answer : r.answerLine (trim line) = (.ok reply, after))
      (spends : spend allowance = some left)
      (step : ∀ rest, answerLines allowance (line :: rest) r =
        let later := answerLines left rest after
        { later with sent := reply :: later.sent })

theorem lineTurn (allowance : Option Nat) (line : List UInt8) (r : Registry) :
    LineTurn allowance line r := by
  by_cases passed : trim line = []
  · exact .blank passed fun rest => by rw [answerLines, if_pos passed]
  · cases answer : r.answerLine (trim line) with
    | mk outcome after =>
        cases outcome with
        | error overrun =>
            exact .unanswered overrun after passed answer fun rest => by
              rw [answerLines, if_neg passed, answer]
        | ok reply =>
            cases spends : spend allowance with
            | none =>
                refine .unsent reply after passed answer spends fun rest => ?_
                rw [answerLines, if_neg passed, answer]
                simp only [spends]
            | some left =>
                refine .sent reply after left passed answer spends fun rest => ?_
                rw [answerLines, if_neg passed, answer]
                simp only [spends]

theorem answerLines_append (allowance : Option Nat) (first second : List (List UInt8))
    (r : Registry) :
    answerLines allowance (first ++ second) r =
      let progress := answerLines allowance first r
      match progress.allowance with
      | none => progress
      | some left =>
        let later := answerLines left second progress.registry
        { later with sent := progress.sent ++ later.sent } := by
  induction first generalizing allowance r with
  | nil => rfl
  | cons line rest ih =>
      rw [List.cons_append]
      cases lineTurn allowance line r with
      | blank _ step => rw [step, step, ih]
      | unanswered overrun after _ _ step | unsent reply after _ _ _ step => rw [step, step]
      | sent reply after left _ _ _ step =>
          rw [step, step, ih]
          dsimp only
          split <;> rfl

/-- What is sent, and what is left, depends on the bytes that arrive, and not on where they were
cut: the lines are those of the bytes that waited and all that arrives after them. -/
theorem serveFrom_eq (allowance : Option Nat) (pending : List UInt8) (portions : List Portion)
    (r : Registry) (unended : 10 ∉ pending) :
    serveFrom allowance pending portions r =
      let progress := answerLines allowance (splitLines (pending ++ arriving portions)).1 r
      (progress.sent, progress.registry) := by
  have ended : (splitLines (pending ++ [])).1 = [] := by
    rw [List.append_nil, splitLines_of_not_mem pending unended]
  induction portions generalizing allowance pending r with
  | nil => rw [serveFrom, arriving, ended, answerLines]
  | cons portion rest ih =>
      cases portion with
      | reset => rw [serveFrom, arriving, ended, answerLines]
      | bytes bytes =>
          rw [serveFrom, arriving]
          split
          · rw [ended, answerLines]
          · -- what is left of the bytes so far has no line end, so the other portions go on from it
            have left := not_mem_tail_splitLines (pending ++ bytes)
            rw [← List.append_assoc, splitLines_append (pending ++ bytes), answerLines_append]
            dsimp only
            cases (answerLines allowance (splitLines (pending ++ bytes)).1 r).allowance with
            | none => rfl
            | some more =>
                have still : (splitLines ((splitLines (pending ++ bytes)).2 ++ [])).1 = [] := by
                  rw [List.append_nil, splitLines_of_not_mem _ left]
                dsimp only
                rw [ih more _ _ left still]

theorem serve_eq (client : Client) (r : Registry) :
    serve client r =
      let progress := answerLines client.maxReplies (splitLines (arriving client.portions)).1 r
      (progress.sent, progress.registry) :=
  serveFrom_eq client.maxReplies [] client.portions r List.not_mem_nil

/-- The requests among some lines: those that are not blank, without the blanks at their ends. -/
def requestsOf (lines : List (List UInt8)) : List (List UInt8) :=
  (lines.map trim).filter fun line => line ≠ []

theorem requestsOf_cons (line : List UInt8) (rest : List (List UInt8)) :
    requestsOf (line :: rest) =
      if trim line = [] then requestsOf rest else trim line :: requestsOf rest := by
  rw [requestsOf, List.map_cons, List.filter_cons]
  simp only [ne_eq, decide_not, Bool.not_eq_true', decide_eq_false_iff_not, ite_not, requestsOf]

end Connection

/-! ## Requests in order -/

open Connection (requestsOf spend answerLines)

namespace Registry

/-- The replies to some requests, up to the first one that gets none, and the registry then. -/
def answerInOrder : List (List UInt8) → Registry → List Text × Registry
  | [], r => ([], r)
  | request :: rest, r =>
    match r.answerLine request with
    | (.error _, r) => ([], r)
    | (.ok reply, r) =>
      let (replies, r) := answerInOrder rest r
      (reply :: replies, r)

/-- The registry after some requests. -/
def afterRequests (r : Registry) (requests : List (List UInt8)) : Registry :=
  requests.foldl (fun r request => (r.answerLine request).2) r

theorem afterRequests_cons (r : Registry) (request : List UInt8) (rest : List (List UInt8)) :
    r.afterRequests (request :: rest) = (r.answerLine request).2.afterRequests rest := rfl

theorem afterRequests_append (r : Registry) (first second : List (List UInt8)) :
    r.afterRequests (first ++ second) = (r.afterRequests first).afterRequests second :=
  List.foldl_append

theorem answerLines_none (lines : List (List UInt8)) (r : Registry) :
    let progress := answerLines none lines r
    (progress.sent, progress.registry) = r.answerInOrder (requestsOf lines) := by
  induction lines generalizing r with
  | nil => rfl
  | cons line rest ih =>
      rw [Connection.requestsOf_cons]
      cases Connection.lineTurn none line r with
      | blank passed step =>
          rw [step, if_pos passed]
          exact ih r
      | unanswered overrun after request answer step =>
          rw [step, if_neg request, answerInOrder, answer]
      | unsent reply after request answer spent step => cases spent
      | sent reply after left request answer spends step =>
          cases spends
          rw [step, if_neg request, answerInOrder, answer]
          dsimp only
          rw [← ih]

/-- What came of some requests when the client takes so many replies: the first of them were handled,
each reply that was sent is the one to the request in its place, and all of them were handled and
answered unless the last one handled got no reply or a reply that the client did not take. -/
structure Handled (allowance : Option Nat) (requests : List (List UInt8)) (r : Registry)
    (handled : List (List UInt8)) (sent : List Text) : Prop where
  inOrder : handled <+: requests
  replies : ∀ k reply, sent[k]? = some reply → ∃ request, handled[k]? = some request ∧
    ((r.afterRequests (handled.take k)).answerLine request).1 = .ok reply
  taken : ∀ most, allowance = some most → sent.length ≤ most
  ends : handled = requests ∧ sent.length = handled.length ∨
    ∃ answered last, handled = answered ++ [last] ∧ sent.length = answered.length ∧
      (allowance = some sent.length ∨
        ∃ overrun, ((r.afterRequests answered).answerLine last).1 = .error overrun)

section Handled

variable (allowance : Option Nat) (request : List UInt8) (requests : List (List UInt8))
  (r after : Registry)

theorem handled_nil : Handled allowance [] r [] [] where
  inOrder := List.prefix_refl []
  replies := by simp
  taken := by simp
  ends := .inl ⟨rfl, rfl⟩

theorem handled_unanswered (overrun : Json.Overrun)
    (answer : r.answerLine request = (.error overrun, after)) :
    Handled allowance (request :: requests) r [request] [] where
  inOrder := ⟨requests, rfl⟩
  replies := by simp
  taken := by simp
  ends := .inr ⟨[], request, rfl, rfl, .inr ⟨overrun, congrArg Prod.fst answer⟩⟩

theorem handled_unsent (spent : spend allowance = none) :
    Handled allowance (request :: requests) r [request] [] where
  inOrder := ⟨requests, rfl⟩
  replies := by simp
  taken := by simp
  ends := by
    refine .inr ⟨[], request, rfl, rfl, .inl ?_⟩
    rcases allowance with _ | _ | most
    · cases spent
    · rfl
    · cases spent

theorem handled_sent (reply : Text) (left : Option Nat)
    (answer : r.answerLine request = (.ok reply, after)) (spends : spend allowance = some left)
    (handled : List (List UInt8)) (sent : List Text)
    (later : Handled left requests after handled sent) :
    Handled allowance (request :: requests) r (request :: handled) (reply :: sent) := by
  have onward (answered : List (List UInt8)) :
      r.afterRequests (request :: answered) = after.afterRequests answered := by
    rw [afterRequests_cons, answer]
  have allowed (most : Nat) : allowance = some (most + 1) ↔ left = some most := by
    rcases allowance with _ | _ | before
    all_goals cases spends
    all_goals simp
  refine ⟨?_, ?_, ?_, ?_⟩
  · exact List.cons_prefix_cons.mpr ⟨rfl, later.inOrder⟩
  · intro k found place
    cases k with
    | zero =>
        rw [← Option.some.inj place]
        exact ⟨request, rfl, congrArg Prod.fst answer⟩
    | succ k =>
        obtain ⟨other, inPlace, answered⟩ := later.replies k found place
        refine ⟨other, inPlace, ?_⟩
        rw [List.take_succ_cons, onward]
        exact answered
  · intro most allows
    cases most with
    | zero =>
        rw [allows] at spends
        cases spends
    | succ most =>
        exact Nat.succ_le_succ (later.taken most ((allowed most).mp allows))
  · rcases later.ends with ⟨all, each⟩ | ⟨answered, last, split, each, fails⟩
    · exact .inl ⟨congrArg _ all, congrArg _ each⟩
    · refine .inr ⟨request :: answered, last, congrArg _ split, congrArg _ each, ?_⟩
      rw [onward]
      exact fails.imp_left (allowed sent.length).mpr

end Handled

theorem handled_answerLines (allowance : Option Nat) (lines : List (List UInt8)) (r : Registry) :
    let progress := answerLines allowance lines r
    ∃ handled, Handled allowance (requestsOf lines) r handled progress.sent ∧
      progress.registry = r.afterRequests handled := by
  induction lines generalizing allowance r with
  | nil => exact ⟨[], handled_nil allowance r, rfl⟩
  | cons line rest ih =>
      rw [Connection.requestsOf_cons]
      cases Connection.lineTurn allowance line r with
      | blank passed step =>
          rw [step, if_pos passed]
          exact ih allowance r
      | unanswered overrun after request answer step =>
          rw [step, if_neg request]
          refine ⟨_, handled_unanswered allowance _ _ r after overrun answer, ?_⟩
          exact (congrArg Prod.snd answer).symm
      | unsent reply after request answer spent step =>
          rw [step, if_neg request]
          refine ⟨_, handled_unsent allowance _ _ r spent, ?_⟩
          exact (congrArg Prod.snd answer).symm
      | sent reply after left request answer spends step =>
          rw [step, if_neg request]
          obtain ⟨handled, later, comes⟩ := ih left after
          refine ⟨_, handled_sent allowance _ _ r after reply left answer spends handled _ later, ?_⟩
          rw [afterRequests_cons, answer]
          exact comes

end Registry

/-! ## Replies as lines -/

/-- Replies that go out as lines, one for each of them. -/
structure SentAsLines (sent : List Text) (lines : List (List UInt8)) : Prop where
  framed : Framed (sent.flatMap Utf8.encode) lines []
  each : sent.map Utf8.encode = lines.map (· ++ [10])

theorem Utf8.encode_line (t : Text) (oneLine : Json.OneLine t) :
    encode (t ++ "\n") = encode t ++ [10] ∧ 10 ∉ encode t := by
  refine ⟨encode_append t "\n", ?_⟩
  rw [encode_of_ascii t (Json.ascii_of_oneLine t oneLine)]
  intro member
  obtain ⟨c, inText, same⟩ := List.mem_map.mp member
  have printable := oneLine c inText
  have value := congrArg UInt8.toNat same
  rw [UInt8.toNat_ofNat'] at value
  change c.val % 256 = 10 at value
  omega

theorem Registry.oneLine_answerLine (r : Registry) (bytes : List UInt8) (reply : Text)
    (answer : (r.answerLine bytes).1 = .ok reply) :
    ∃ t, reply = t ++ "\n" ∧ Json.OneLine t := by
  change (r.answerBytes bytes).1.map Reply.line = .ok reply at answer
  generalize (r.answerBytes bytes).1 = outcome at answer
  cases outcome with
  | error overrun => cases answer
  | ok stated =>
      have spelled := Json.spells_render stated.stated.toJson stated.isStrict_stated
      refine ⟨stated.stated.toJson.render, ?_, Json.oneLine_of_spells spelled⟩
      rw [← stated.line_eq_render]
      exact (Except.ok.inj answer).symm

theorem sentAsLines (sent : List Text)
    (oneLine : ∀ reply ∈ sent, ∃ t, reply = t ++ "\n" ∧ Json.OneLine t) :
    ∃ lines, SentAsLines sent lines := by
  induction sent with
  | nil => exact ⟨[], ⟨rfl, List.forall_mem_nil _, List.not_mem_nil⟩, rfl⟩
  | cons reply rest ih =>
      obtain ⟨lines, framed, each⟩ := ih fun other member =>
        oneLine other (List.mem_cons_of_mem reply member)
      obtain ⟨t, rfl, printable⟩ := oneLine reply List.mem_cons_self
      obtain ⟨ended, inside⟩ := Utf8.encode_line t printable
      refine ⟨Utf8.encode t :: lines, ⟨?_, ?_, framed.inTail⟩, ?_⟩
      · rw [List.flatMap_cons, ← framed.whole, ended]
        simp
      · intro line member
        rcases List.mem_cons.mp member with rfl | later
        · exact inside
        · exact framed.inLine line later
      · rw [List.map_cons, ended, each, List.map_cons]

theorem Registry.sentAsLines_of_handled (allowance : Option Nat) (requests : List (List UInt8))
    (r : Registry) (handled : List (List UInt8)) (sent : List Text)
    (come : Handled allowance requests r handled sent) : ∃ lines, SentAsLines sent lines := by
  refine sentAsLines sent fun reply member => ?_
  obtain ⟨k, place⟩ := List.getElem?_of_mem member
  obtain ⟨request, -, answer⟩ := come.replies k reply place
  exact oneLine_answerLine _ request reply answer

/-! ## Clients in turn -/

namespace Connection

/-- Clients that are served one after another: the requests of each are among the bytes that arrive
from it, and they are handled by the registry that the requests handled before have left. -/
inductive InTurn : Registry → List Client → List (List (List UInt8)) → List (List Text) → Prop
  | nil (r : Registry) : InTurn r [] [] []
  | cons (r : Registry) (client : Client) (rest : List Client) (lines : List (List UInt8))
      (tail : List UInt8) (framed : Framed (arriving client.portions) lines tail)
      (handled : List (List UInt8)) (sent : List Text)
      (own : r.Handled client.maxReplies (requestsOf lines) handled sent)
      (out : ∃ lines, SentAsLines sent lines)
      (others : List (List (List UInt8))) (more : List (List Text))
      (later : InTurn (r.afterRequests handled) rest others more) :
      InTurn r (client :: rest) (handled :: others) (sent :: more)

theorem handled_serve (client : Client) (r : Registry) (lines : List (List UInt8))
    (tail : List UInt8) (framed : Framed (arriving client.portions) lines tail) :
    ∃ handled, r.Handled client.maxReplies (requestsOf lines) handled (serve client r).1 ∧
      (serve client r).2 = r.afterRequests handled := by
  rw [serve_eq, splitLines_of_framed _ lines tail framed]
  exact r.handled_answerLines client.maxReplies lines

theorem inTurn_serveAll (clients : List Client) (r : Registry) :
    ∃ handled, InTurn r clients handled (serveAll clients r).1 ∧
      (serveAll clients r).2 = r.afterRequests handled.flatten := by
  induction clients generalizing r with
  | nil => exact ⟨[], .nil r, rfl⟩
  | cons client rest ih =>
      have framed := framed_splitLines (arriving client.portions)
      obtain ⟨handled, own, comes⟩ := handled_serve client r _ _ framed
      obtain ⟨others, later, left⟩ := ih (r.afterRequests handled)
      have out := r.sentAsLines_of_handled _ _ _ _ own
      rw [← comes] at left
      refine ⟨handled :: others, .cons r client rest _ _ framed handled _ own out others _ ?_, ?_⟩
      · rw [← comes] at later ⊢
        exact later
      · refine left.trans ?_
        rw [List.flatten_cons, Registry.afterRequests_append, comes]

end Connection

open Connection in
/-- Every stream of bytes is lines and a tail in one way.  However it is cut into portions, it is
answered as its requests are, one after another, up to one that gets no reply, and its tail is not
looked at.  Clients that are served in turn, whatever becomes of them, leave the registry that the
requests handled for them leave, in this order; the replies that each gets are those to its requests
in the same places, and each is a line of its own. -/
theorem framing_is_independent_of_arrival (r : Registry) :
    (∀ stream, ∃ lines tail, Framed stream lines tail) ∧
    (∀ stream lines tail, Framed stream lines tail →
      ∀ cut : List (List UInt8), (∀ portion ∈ cut, portion ≠ []) → cut.flatten = stream →
        serve ⟨cut.map .bytes, none⟩ r = r.answerInOrder (requestsOf lines)) ∧
    ∀ clients, ∃ handled, InTurn r clients handled (serveAll clients r).1 ∧
      (serveAll clients r).2 = r.afterRequests handled.flatten := by
  refine ⟨?_, ?_, ?_⟩
  · intro stream
    exact ⟨_, _, framed_splitLines stream⟩
  · rintro stream lines tail framed cut nonempty rfl
    have split := splitLines_of_framed _ lines tail framed
    rw [serve_eq, arriving_of_cut cut nonempty, split]
    exact r.answerLines_none lines
  · intro clients
    exact inTurn_serveAll clients r

/-- Two requests, a blank line between them and an incomplete line after them, in one portion and byte
by byte. -/
theorem requests_byte_by_byte_are_answered :
    let r := Registry.start ⟨none, none⟩ (.ofScript [] 0) (.zero false)
    let first := Utf8.encode "\x7b\"cmd\": \"get\", \"session\": \"s\", \"name\": \"x\"\x7d\r"
    let stream := first ++ Utf8.encode "\n\n\t7\n[1, "
    let replies := [
      (Reply.fault (Fault.sessionNotFound "s").report).line, (Reply.invalid .notObject).line]
    (Connection.serve ⟨[.bytes stream], none⟩ r).1 = replies ∧
      (Connection.serve ⟨(stream.map fun b => [b]).map .bytes, none⟩ r).1 = replies := by
  intro r first stream replies
  have framed : Framed stream [first, [], [9, 55]] (Utf8.encode "[1, ") :=
    ⟨by decide +kernel, by decide +kernel, by decide +kernel⟩
  have same := (framing_is_independent_of_arrival r).2.1 stream _ _ framed
  have answers : (r.answerInOrder (Connection.requestsOf [first, [], [9, 55]])).1 = replies := by
    decide +kernel
  refine ⟨?_, ?_⟩
  · rw [← answers, ← same [stream] (by decide +kernel) (by simp)]
    rfl
  · rw [← answers, ← same (stream.map fun b => [b]) (by simp) (by decide +kernel)]

end ParenCalc
