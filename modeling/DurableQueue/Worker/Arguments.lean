import DurableQueue.Limits
import DurableQueue.Text.Number

/-! The arguments of the worker's command line and what they ask for. Arguments are read from left to right: the first
    that is wrong or asks for help decides. -/

namespace DurableQueue
namespace Worker

/-- What the worker can be told to do, and `help`, which every such program has. -/
inductive Verb where
  | migrate
  | cleanup
  | stats
  | publish
  | run
  | help
  deriving DecidableEq, Repr

namespace Verb

/-- All verbs in the order in which they are listed. -/
def all : List Verb := [migrate, cleanup, stats, publish, run, help]

/-- The verb as it is written. -/
def word : Verb → String
  | migrate => "migrate"
  | cleanup => "cleanup"
  | stats => "stats"
  | publish => "publish"
  | run => "run"
  | help => "help"

/-- The verb that a word is. -/
def ofWord? (word : String) : Option Verb := all.find? (·.word = word)

end Verb

/-- What the worker is told to do. -/
inductive Command where
  /-- Bring the tables up to date. -/
  | migrate
  /-- Put back the tasks that have been running for longer than so many seconds. -/
  | cleanup (timeout : Option Nat)
  /-- Count the tasks in each status. -/
  | stats
  /-- Publish a task, with a delay in seconds. -/
  | publish (subject payload : String) (delay maxAttempts : Option Nat)
  /-- Fire cron jobs and put back stuck tasks until interrupted. -/
  | run
  deriving DecidableEq, Repr

/-- What the arguments ask for. -/
inductive Request where
  | perform (command : Command)
  /-- Help about one verb or about the whole program. -/
  | explain (topic : Option Verb)
  | version
  deriving DecidableEq, Repr

/-! ### One argument -/

/-- An argument by its shape. -/
inductive Argument where
  /-- Two hyphens alone: what follows is taken as it is. -/
  | divider
  /-- Two hyphens and a name, perhaps with a value behind an equals sign. -/
  | long (name : String) (value : Option String)
  /-- A hyphen and letters. -/
  | short (first : Char)
  | plain (text : String)
  deriving DecidableEq, Repr

/-- The shape of an argument. A hyphen alone is plain. -/
def Argument.of (text : String) : Argument :=
  match text.toList with
  | ['-', '-'] => .divider
  | '-' :: '-' :: cs =>
    let name := cs.takeWhile (· ≠ '=')
    let value := match cs.dropWhile (· ≠ '=') with
      | [] => none
      | _ :: value => some (String.ofList value)
    .long (String.ofList name) value
  | '-' :: c :: _ => .short c
  | _ => .plain text

/-! ### Options and places -/

/-- An option that takes a value. -/
structure Setting where
  name : String
  /-- Whether it can have a value. -/
  accepts : String → Bool

/-- A number below 2^64. -/
def word? (text : String) : Option Nat := (Text.readUnsigned wordBound text).toOption

/-- A number below 2^32. Nothing below zero is one, but zero may have a sign. -/
def counter? (text : String) : Option Nat :=
  match text.toList with
  | '-' :: c :: cs => if (c :: cs).all (· = '0') then some 0 else none
  | _ => (Text.readUnsigned counterBound text).toOption

namespace Setting

def timeout : Setting := ⟨"timeout-secs", fun value => (word? value).isSome⟩

def payload : Setting := ⟨"payload", fun _ => true⟩

def delay : Setting := ⟨"delay-secs", fun value => (word? value).isSome⟩

def maxAttempts : Setting := ⟨"max-attempts", fun value => (counter? value).isSome⟩

end Setting

/-- The options of a verb. -/
def Verb.settings : Verb → List Setting
  | cleanup => [.timeout]
  | publish => [.payload, .delay, .maxAttempts]
  | _ => []

/-- The number of arguments of a verb that are not options. All of them have to be there. -/
def Verb.places : Verb → Nat
  | publish => 1
  | _ => 0

/-- What has been said about a verb. -/
structure Said where
  values : List (String × String) := []
  places : List String := []
  deriving DecidableEq, Repr

/-- Notes the value of an option, which must not have one yet. -/
def Said.addValue (verb : Verb) (said : Said) (name value : String) : Option Said :=
  match verb.settings.find? (·.name = name) with
  | none => none
  | some setting =>
    if setting.accepts value && (said.values.lookup name).isNone then
      some { said with values := said.values ++ [(name, value)] }
    else none

/-- Notes an argument that is not an option. -/
def Said.addPlace (verb : Verb) (said : Said) (text : String) : Option Said :=
  if said.places.length < verb.places then some { said with places := said.places ++ [text] } else none

/-- What arguments say about a verb, added to what has been said before, or a request for help about it. -/
def readSaid (verb : Verb) : Said → List String → Option (Option Said)
  | said, [] => some (some said)
  | said, text :: rest =>
    match Argument.of text with
    | .divider => (rest.foldlM (Said.addPlace verb) said).map some
    | .short c => if c = 'h' then some none else none
    | .plain text => do readSaid verb (← said.addPlace verb text) rest
    | .long "help" none => some none
    | .long name (some value) => do readSaid verb (← said.addValue verb name value) rest
    | .long name none =>
      match rest with
      | [] => none
      | value :: rest =>
        match Argument.of value with
        | .plain value => do readSaid verb (← said.addValue verb name value) rest
        | _ => none

/-! ### All arguments -/

/-- The command that has been said, if it is complete. -/
def Said.command (verb : Verb) (said : Said) : Option Command :=
  let value (setting : Setting) := said.values.lookup setting.name
  match verb, said.places with
  | .migrate, _ => some .migrate
  | .cleanup, _ => some (.cleanup ((value .timeout).bind word?))
  | .stats, _ => some .stats
  | .publish, [subject] =>
    some (.publish subject ((value .payload).getD "") ((value .delay).bind word?) ((value .maxAttempts).bind counter?))
  | .run, _ => some .run
  | _, _ => none

/-- What is asked for after the word `help`: a verb, or nothing. No verb has others below it. -/
def readTopic : List String → Option Request
  | [] => some (.explain none)
  | [word] => (Verb.ofWord? word).map fun verb => .explain (some verb)
  | _ => none

/-- What the arguments ask for, if they can be understood. -/
def readRequest : List String → Option Request
  | [] => none
  | text :: rest =>
    match Argument.of text with
    | .long "help" none => some (.explain none)
    | .long "version" none => some .version
    | .short c => if c = 'h' then some (.explain none) else if c = 'V' then some .version else none
    | .plain word =>
      match Verb.ofWord? word with
      | none => none
      | some .help => readTopic rest
      | some verb =>
        match readSaid verb {} rest with
        | none => none
        | some none => some (.explain (some verb))
        | some (some said) => (said.command verb).map .perform
    | _ => none

end Worker
end DurableQueue
