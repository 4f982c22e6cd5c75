import ParenCalc.Text.CodePoint
/-!
# UTF-8

`encode` writes a code point in one to four bytes; `decode` accepts exactly the shortest forms of
the scalar values and says where and why anything else is refused.  `decodePortions` is for bytes
that arrive in portions, which may cut a code point in two.
-/
set_option autoImplicit false

namespace ParenCalc.Utf8

inductive Reason
  | badStart
  | badContinuation
  | truncated
deriving DecidableEq

/-- The bytes from `first` up to `last`, with `lead` the first of them, are refused. -/
structure Refusal where
  first : Nat
  last : Nat
  lead : UInt8
  reason : Reason
deriving DecidableEq

def encodeOne (c : CodePoint) : List UInt8 :=
  if c.val < 0x80 then [UInt8.ofNat c.val]
  else if c.val < 0x800 then
    [UInt8.ofNat (0xC0 + c.val / 64), UInt8.ofNat (0x80 + c.val % 64)]
  else if c.val < 0x10000 then
    [UInt8.ofNat (0xE0 + c.val / 4096), UInt8.ofNat (0x80 + c.val / 64 % 64),
      UInt8.ofNat (0x80 + c.val % 64)]
  else
    [UInt8.ofNat (0xF0 + c.val / 262144), UInt8.ofNat (0x80 + c.val / 4096 % 64),
      UInt8.ofNat (0x80 + c.val / 64 % 64), UInt8.ofNat (0x80 + c.val % 64)]

def encode (t : Text) : List UInt8 := t.flatMap encodeOne

def isContinuation (b : UInt8) : Bool := 0x80 ≤ b.toNat && b.toNat ≤ 0xBF

/-- Whether `b` may follow the first byte `a` of a form of three bytes: nothing that has a shorter
form, and no surrogate. -/
def followsThree (a b : UInt8) : Bool :=
  isContinuation b && if b.toNat < 0xA0 then a.toNat != 0xE0 else a.toNat != 0xED

/-- Whether `b` may follow the first byte `a` of a form of four bytes: nothing that has a shorter
form, and nothing past the last code point. -/
def followsFour (a b : UInt8) : Bool :=
  isContinuation b && if b.toNat < 0x90 then a.toNat != 0xF0 else a.toNat != 0xF4

/-- The bytes of a text, the first of them at `position`. -/
def decodeFrom (position : Nat) : List UInt8 → Except Refusal Text
  | [] => .ok []
  | a :: rest =>
    let refuse (count : Nat) (reason : Reason) : Except Refusal Text :=
      .error ⟨position, position + count, a, reason⟩
    if a.toNat < 0x80 then
      (decodeFrom (position + 1) rest).map (CodePoint.ofNat a.toNat :: ·)
    else if a.toNat < 0xC2 then refuse 1 .badStart
    else if a.toNat < 0xE0 then
      match rest with
      | [] => refuse 1 .truncated
      | b :: rest =>
        if isContinuation b then
          (decodeFrom (position + 2) rest).map
            (CodePoint.ofNat (a.toNat % 32 * 64 + b.toNat % 64) :: ·)
        else refuse 1 .badContinuation
    else if a.toNat < 0xF0 then
      match rest with
      | [] => refuse 1 .truncated
      | b :: rest =>
        if followsThree a b then
          match rest with
          | [] => refuse 2 .truncated
          | c :: rest =>
            if isContinuation c then
              (decodeFrom (position + 3) rest).map
                (CodePoint.ofNat (a.toNat % 16 * 4096 + b.toNat % 64 * 64 + c.toNat % 64) :: ·)
            else refuse 2 .badContinuation
        else refuse 1 .badContinuation
    else if a.toNat < 0xF5 then
      match rest with
      | [] => refuse 1 .truncated
      | b :: rest =>
        if followsFour a b then
          match rest with
          | [] => refuse 2 .truncated
          | c :: rest =>
            if isContinuation c then
              match rest with
              | [] => refuse 3 .truncated
              | d :: rest =>
                if isContinuation d then
                  (decodeFrom (position + 4) rest).map
                    (CodePoint.ofNat (a.toNat % 8 * 262144 + b.toNat % 64 * 4096
                      + c.toNat % 64 * 64 + d.toNat % 64) :: ·)
                else refuse 3 .badContinuation
            else refuse 2 .badContinuation
        else refuse 1 .badContinuation
    else refuse 1 .badStart

def decode (bytes : List UInt8) : Except Refusal Text := decodeFrom 0 bytes

/-- Whether bytes that are refused from their first on may only lack what comes after them: a form
that is cut off, and also the first two bytes of a form of a surrogate. -/
def mayGoOn (reason : Reason) (bytes : List UInt8) : Bool :=
  match bytes with
  | [a, b] => reason = .truncated || a.toNat = 0xED && isContinuation b
  | _ => reason = .truncated

/-- The text of portions that follow on the bytes `waiting`.  What a portion ends with waits for the
next one if it may go on there, and positions count from the bytes that waited. -/
def decodePortions (waiting : List UInt8) : List (List UInt8) → Except Refusal Text
  | [] => decode waiting
  | portion :: rest =>
    let bytes := waiting ++ portion
    match decode bytes with
    | .ok t => (decodePortions [] rest).map (t ++ ·)
    | .error refusal => do
      let tail := bytes.drop refusal.first
      if mayGoOn refusal.reason tail then
        let t ← decode (bytes.take refusal.first)
        (decodePortions tail rest).map (t ++ ·)
      else .error refusal

end ParenCalc.Utf8
