import Reckoner.Command
import Reckoner.Decimal.Reading

/-!
Reading the arguments of the program. The first names a verb, and the verb says what stands in the
places behind it. Words that start with a hyphen are flags, except behind a double hyphen, and
except in the place of a number, which may be negative. A number is checked when the word behind it
is taken, so that an argument too many is reported before a number that is none.
-/

namespace Reckoner.Command

inductive Stop where
  | noArguments
  | unknownVerb
  | unknownArgument
  | missingArgument
  | invalidNumber
  | attachedValue
  | help
  | version
  deriving DecidableEq

/-- What a word looks like. The name of a long flag ends at an equals sign, behind which a value may
be attached. -/
inductive Word where
  | plain
  | doubleHyphen
  | long (name : List Char) (attached : Bool)
  | short (letters : List Char)
  deriving DecidableEq

def Word.ofList : List Char → Word
  | ['-', '-'] => .doubleHyphen
  | '-' :: '-' :: rest => .long (rest.takeWhile (· != '=')) (rest.contains '=')
  | '-' :: letter :: rest => .short (letter :: rest)
  | _ => .plain

inductive Flag where
  | help
  | version
  deriving DecidableEq

namespace Flag

def name : Flag → List Char
  | .help => "help".toList
  | .version => "version".toList

def letter : Flag → Char
  | .help => 'h'
  | .version => 'V'

def stop : Flag → Stop
  | .help => .help
  | .version => .version

end Flag

inductive Place where
  | text
  | number
  deriving DecidableEq

inductive Argument where
  | text (content : String)
  | number (value : Int)
  deriving DecidableEq

def readNatural? (digits : List Char) : Option Nat :=
  if digits.isEmpty || !digits.all Decimal.isDecimalDigit then none
  else some (Decimal.digitsValue 0 digits)

def readInteger? : List Char → Option Int
  | '-' :: digits => (readNatural? digits).map fun value => -(value : Int)
  | '+' :: digits => (readNatural? digits).map fun value => (value : Int)
  | digits => (readNatural? digits).map fun value => (value : Int)

def Place.read? (word : String) : Place → Option Argument
  | .text => some (.text word)
  | .number => (readInteger? word.toList).bind fun value =>
      if Word64.fitsSigned value then some (.number value) else none

inductive Verb where
  | tokens
  | ast
  | validate
  | factorial
  | combination
  deriving DecidableEq

namespace Verb

def all : List Verb :=
  [.tokens, .ast, .validate, .factorial, .combination]

def name : Verb → String
  | .tokens => "tokens"
  | .ast => "ast"
  | .validate => "validate"
  | .factorial => "factorial"
  | .combination => "combination"

def ofName? (name : String) : Option Verb :=
  all.find? fun verb => verb.name == name

def places : Verb → List Place
  | .tokens => [.text]
  | .ast => [.text]
  | .validate => [.text]
  | .factorial => [.number]
  | .combination => [.number, .number]

def command? : Verb → List Argument → Option Command
  | .tokens, [.text text] => some (.tokens text)
  | .ast, [.text text] => some (.ast text)
  | .validate, [.text text] => some (.validate text)
  | .factorial, [.number n] => some (.factorial n)
  | .combination, [.number n, .number k] => some (.combination n k)
  | _, _ => none

end Verb

/-- How far the words behind a verb have been read: the places that are open, the word in the place
before them, which is still to be checked, the arguments before that, and whether a double hyphen
has been read. -/
structure Progress where
  places : List Place
  pending : Option (Place × String)
  arguments : List Argument
  literal : Bool

namespace Progress

def start (verb : Verb) : Progress :=
  ⟨verb.places, none, [], false⟩

def settle (progress : Progress) : Except Stop Progress :=
  match progress.pending with
  | none => .ok progress
  | some (place, word) =>
      match place.read? word with
      | some argument =>
          .ok { progress with pending := none, arguments := progress.arguments ++ [argument] }
      | none => .error .invalidNumber

def take (progress : Progress) (word : String) : Except Stop Progress :=
  match progress.places with
  | [] => .error .unknownArgument
  | place :: rest =>
      progress.settle.map fun settled =>
        { settled with places := rest, pending := some (place, word) }

def askHelp (progress : Progress) : Except Stop Progress :=
  progress.settle.bind fun _ => .error .help

def takesHyphen (progress : Progress) : Bool :=
  progress.places.head? == some .number

def step (progress : Progress) (word : String) : Except Stop Progress :=
  if progress.literal then progress.take word
  else
    match Word.ofList word.toList with
    | .plain => progress.take word
    | .doubleHyphen => .ok { progress with literal := true }
    | .long name attached =>
        if name = Flag.help.name then (if attached then .error .attachedValue else progress.askHelp)
        else if progress.takesHyphen then progress.take word
        else .error .unknownArgument
    | .short letters =>
        if progress.takesHyphen && letters.any (· != Flag.help.letter) then progress.take word
        else if letters.head? = some Flag.help.letter then progress.askHelp
        else .error .unknownArgument

end Progress

def ofWords (verb : Verb) (words : List String) : Except Stop Command := do
  let progress ← words.foldlM Progress.step (Progress.start verb)
  match verb.command? (← progress.settle).arguments with
  | some command => .ok command
  | none => .error .missingArgument

def helpVerb : String := "help"

def isVerb (word : String) : Bool :=
  word == helpVerb || (Verb.ofName? word).isSome

def helpOn : List String → Stop
  | [] => .help
  | [word] => if isVerb word then .help else .unknownVerb
  | _ => .unknownVerb

def stopOfFlag : Word → Stop
  | .long name attached =>
      match [Flag.help, .version].find? fun flag => flag.name == name with
      | some flag => if attached then .attachedValue else flag.stop
      | none => .unknownArgument
  | .short letters =>
      match [Flag.help, .version].find? fun flag => letters.head? == some flag.letter with
      | some flag => flag.stop
      | none => .unknownArgument
  | _ => .unknownVerb

/-- The command that the arguments of the program ask for. No verb may stand behind a double
hyphen. -/
def ofArguments : List String → Except Stop Command
  | [] => .error .noArguments
  | word :: rest =>
      match Verb.ofName? word with
      | some verb => ofWords verb rest
      | none =>
          if word = helpVerb then .error (helpOn rest)
          else
            match Word.ofList word.toList, rest with
            | .doubleHyphen, [] => .error .noArguments
            | .doubleHyphen, next :: _ =>
                .error (if isVerb next then .unknownArgument else .unknownVerb)
            | flag, _ => .error (stopOfFlag flag)

end Reckoner.Command
