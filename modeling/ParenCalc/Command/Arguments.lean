import ParenCalc.Number.Numeral
import ParenCalc.Text.Blank
/-!
# Arguments

The words of a command line: options that come before the name of a task, the name, and the options
and operand of that task.  A long option may be shortened as long as it stays the only one with that
beginning, and takes its value from the next word or after an equals sign; two dashes after the
equals sign leave it without any value.  After two dashes in a word of their own every word is
plain, and so is a word that looks like a negative number.
-/
set_option autoImplicit false

namespace ParenCalc

inductive Arguments.Stop
  | usage
  | help
deriving DecidableEq

inductive Arguments.Key
  | logLevel
  | host
  | portNumber
deriving DecidableEq

/-- An option that asks for help, or one that takes a value. -/
inductive Arguments.Effect
  | help
  | store (key : Arguments.Key)

/-- A word as the options in force make it out.  Help may come with a value that it cannot take. -/
inductive Arguments.Word
  | plain
  | separator
  | help (accepted : Bool)
  | valued (key : Arguments.Key) (value : Option Text)
  | unknown

/-- What a command line says about an option: nothing, that it is to have no value at all, or its
value. -/
inductive Arguments.Given (α : Type)
  | silent
  | void
  | value (a : α)
deriving DecidableEq

abbrev Arguments.Flags := List (Text × Arguments.Effect)

namespace Arguments

def Given.resolve {α : Type} (default : α) : Given α → Option α
  | .silent => some default
  | .void => none
  | .value a => some a

/-- Whether help stands with `beside` in the same word: the short option may be repeated there, and
the long one has to be alone. -/
def helpStands (name : Text) (beside : Option Text) : Bool :=
  match beside with
  | none => true
  | some more => name = "-h" && more ≠ [] && more.all fun c => c = CodePoint.ofChar 'h'

/-- The word of an option that may have a value in the same word. -/
def Effect.word (name : Text) (value : Option Text) : Effect → Word
  | .help => .help (helpStands name value)
  | .store key => .valued key value

/-- A minus sign and digits, with at most one point before the last of them; a line feed may
follow. -/
def looksNegative (word : Text) : Bool :=
  match if word.getLast? = some (CodePoint.ofChar '\n') then word.dropLast else word with
  | [] => false
  | c :: rest =>
    let parts := (rest.dropWhile CodePoint.isDigit).drop 1
    c = '-' && rest ≠ [] &&
      (rest.all CodePoint.isDigit ||
        ((rest.dropWhile CodePoint.isDigit).take 1 = "." && parts ≠ [] &&
          parts.all CodePoint.isDigit))

/-- What a word is, apart from two dashes alone; nothing when it shortens more than one option. -/
def classify? (flags : Flags) (word : Text) : Option Word :=
  let name := word.takeWhile fun c => c ≠ CodePoint.ofChar '='
  let value := if name = word then none else some (word.drop (name.length + 1))
  if word.take 1 ≠ "-" ∨ word = "-" then some .plain
  else
    match flags.find? fun flag => flag.1 = word with
    | some flag => some (flag.2.word flag.1 none)
    | none =>
      match flags.find? fun flag => flag.1 = name with
      | some flag => some (flag.2.word flag.1 value)
      | none =>
        let candidates : List Word :=
          if word.take 2 = "--" then
            (flags.filter fun flag => name.isPrefixOf flag.1).map fun flag =>
              flag.2.word flag.1 value
          else
            (flags.filter fun flag => flag.1 = word.take 2).map fun flag =>
              flag.2.word flag.1 (some (word.drop 2))
        match candidates with
        | [only] => some only
        | [] =>
          if looksNegative word || word.contains (CodePoint.ofChar ' ') then some .plain
          else some .unknown
        | _ => none

def classifyAll? (flags : Flags) : List Text → Option (List (Text × Word))
  | [] => some []
  | word :: rest =>
    if word = "--" then
      some ((word, .separator) :: rest.map fun plain => (plain, Word.plain))
    else do
      let first ← classify? flags word
      let others ← classifyAll? flags rest
      return (word, first) :: others

/-- What has been taken from the words so far, and whether there was a word that nothing wants. -/
structure Taken where
  logLevel : Given Text
  host : Given Text
  portNumber : Given Int
  operand : Option Text
  excess : Bool

def Taken.nothing : Taken := ⟨.silent, .silent, .silent, none, false⟩

/-- An integer with room around it. -/
def portNumber? (value : Text) : Option Int :=
  Numeral.groupedInteger? (Text.trimmed CodePoint.isSpacing value)

def Taken.store (t : Taken) (value : Text) : Key → Except Stop Taken
  | .logLevel => .ok { t with logLevel := .value value }
  | .host => .ok { t with host := .value value }
  | .portNumber =>
    match portNumber? value with
    | some n => .ok { t with portNumber := .value n }
    | none => .error .usage

def Taken.void (t : Taken) : Key → Taken
  | .logLevel => { t with logLevel := .void }
  | .host => { t with host := .void }
  | .portNumber => { t with portNumber := .void }

/-- Takes what stands after the equals sign of an option. -/
def Taken.assign (t : Taken) (value : Text) (key : Key) : Except Stop Taken :=
  if value = "--" then .ok (t.void key) else t.store value key

/-- Takes options up to the first word that is none, and leaves the words from there on. -/
def takeOptions (t : Taken) : List (Text × Word) → Except Stop (Taken × List (Text × Word))
  | [] => .ok (t, [])
  | (_, .help accepted) :: _ => .error (if accepted then .help else .usage)
  | (_, .unknown) :: rest => takeOptions { t with excess := true } rest
  | (_, .valued key (some value)) :: rest =>
    match t.assign value key with
    | .error stop => .error stop
    | .ok t => takeOptions t rest
  | (_, .valued key none) :: (value, .plain) :: rest =>
    match t.store value key with
    | .error stop => .error stop
    | .ok t => takeOptions t rest
  | (_, .valued _ none) :: _ => .error .usage
  | (word, .plain) :: rest => .ok (t, (word, .plain) :: rest)
  | (word, .separator) :: rest => .ok (t, (word, .separator) :: rest)

/-- Takes a plain word: the operand if there is room for one. -/
def Taken.plain (operands : Bool) (t : Taken) (word : Text) : Taken :=
  if operands && t.operand.isNone then { t with operand := some word }
  else { t with excess := true }

/-- Takes the words after two dashes, all plain; the dashes themselves are in the way unless they
stand beside the operand. -/
def Taken.plainWords (operands : Bool) (t : Taken) (besideOperand : Bool) (words : List Text) :
    Taken :=
  let fits := besideOperand || operands && t.operand.isNone && words ≠ []
  words.foldl (Taken.plain operands) (if fits then t else { t with excess := true })

/-- Takes the words of a task, of which there are at most `rounds`; `operands` tells whether it
wants an operand, and `afterOperand` whether that was the last word. -/
def takeWords (operands : Bool) :
    (rounds : Nat) → (afterOperand : Bool) → Taken → List (Text × Word) → Except Stop Taken
  | 0, _, t, _ => .ok t
  | rounds + 1, afterOperand, t, words =>
    match takeOptions t words with
    | .error stop => .error stop
    | .ok (t, []) => .ok t
    | .ok (t, (word, .plain) :: rest) =>
      takeWords operands rounds (operands && t.operand.isNone) (t.plain operands word) rest
    | .ok (t, _ :: rest) => .ok (t.plainWords operands afterOperand (rest.map Prod.fst))

def ofTask (flags : Flags) (operands : Bool) (words : List Text) : Except Stop Taken :=
  match classifyAll? flags words with
  | none => .error .usage
  | some classified =>
    match takeWords operands classified.length.succ false .nothing classified with
    | .error stop => .error stop
    | .ok taken => if operands && taken.operand.isNone then .error .usage else .ok taken

def helpFlags : Flags := [("-h", .help), ("--help", .help)]

def serveFlags : Flags := ("--host", .store .host) :: ("--port", .store .portNumber) :: helpFlags

inductive Request
  | repl
  | run (path : Text)
  | serve (host : Given Text) (portNumber : Given Int)

def request (name : Text) (words : List Text) : Except Stop Request :=
  let finish (taken : Taken) (request : Request) : Except Stop Request :=
    if taken.excess then .error .usage else .ok request
  if name = "repl" then do
    let taken ← ofTask helpFlags false words
    finish taken .repl
  else if name = "run" then do
    let taken ← ofTask helpFlags true words
    finish taken (.run (taken.operand.getD []))
  else if name = "serve" then do
    let taken ← ofTask serveFlags false words
    finish taken (.serve taken.host taken.portNumber)
  else .error .usage

/-- The options before the name of a task. -/
def mainFlags : Flags := ("--log-level", .store .logLevel) :: helpFlags

def parse (words : List Text) : Except Stop (Given Text × Request) :=
  match classifyAll? mainFlags words with
  | none => .error .usage
  | some classified =>
    match takeOptions .nothing classified with
    | .error stop => .error stop
    | .ok (t, (name, .plain) :: rest) =>
      match request name (rest.map Prod.fst) with
      | .error stop => .error stop
      | .ok request => if t.excess then .error .usage else .ok (t.logLevel, request)
    | .ok _ => .error .usage

end Arguments

end ParenCalc
