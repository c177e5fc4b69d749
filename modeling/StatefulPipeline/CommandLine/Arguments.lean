import StatefulPipeline.Numeral
import StatefulPipeline.Vocabulary

/-! Command line arguments. The global options may stand before or after the command, once in each
place; the one after the command counts. An option has one value, attached or in the next
argument; a next argument that starts with a dash is not a value, save a dash alone. -/

namespace StatefulPipeline
namespace CommandLine

inductive Opt where
  | config
  | device
  | format
  | ipDst
  | ipSrc
  | ipProto
  | tcpSrc
  | tcpDst
  | output
  | register
deriving DecidableEq, Repr

namespace Opt

def long : Opt → String
  | config => "config"
  | device => "device"
  | format => "format"
  | ipDst => "ip-dst"
  | ipSrc => "ip-src"
  | ipProto => "ip-proto"
  | tcpSrc => "tcp-src"
  | tcpDst => "tcp-dst"
  | output => "output"
  | register => "register-id"

def short? : Opt → Option Char
  | config => some 'c'
  | format => some 'f'
  | ipDst => some 'd'
  | ipSrc => some 's'
  | ipProto => some 'p'
  | output => some 'o'
  | register => some 'r'
  | _ => none

def limit? : Opt → Option Nat
  | ipProto => some (UInt8.size - 1)
  | tcpSrc => some (UInt16.size - 1)
  | tcpDst => some (UInt16.size - 1)
  | register => some (UInt32.size - 1)
  | _ => none

def globals : List Opt := [config, device, format]

end Opt

/-- A decimal number from zero to a limit. -/
def numberUpTo? (limit : Nat) (text : String) : Option Nat :=
  match Numeral.integer? text.toList with
  | some i => if 0 ≤ i ∧ i ≤ limit then some i.toNat else none
  | none => none

/-- Whether a text can be the value of an option: a path is not empty, and a number is in range. -/
def Opt.accepts (o : Opt) (text : String) : Bool :=
  match o.limit? with
  | some limit => (numberUpTo? limit text).isSome
  | none => !(o = .config ∧ text = "")

inductive Verb where
  | start
  | stop
  | bind
  | inspect
  | schema
deriving DecidableEq, Repr

namespace Verb

def all : List Verb := [start, stop, bind, inspect, schema]

def name : Verb → String
  | start => "start"
  | stop => "stop"
  | bind => "bind"
  | inspect => "show"
  | schema => "schema"

def ofName? (name : String) : Option Verb := all.find? fun v => v.name = name

def options : Verb → List Opt
  | bind =>
    Opt.globals ++ [.ipDst, .ipSrc, .ipProto, .tcpSrc, .tcpDst, .output, .register]
  | _ => Opt.globals

def takesService : Verb → Bool
  | schema => false
  | _ => true

end Verb

inductive Shape where
  | dashes
  | long (name : String) (value : Option String)
  | short (letter : Char) (rest : List Char)
  | plain
deriving DecidableEq, Repr

/-- A long option up to its equals sign, and the value after it. -/
def splitLong (cs : List Char) : String × Option String :=
  match cs.dropWhile fun c => c ≠ '=' with
  | [] => (String.ofList cs, none)
  | _ :: value => (String.ofList (cs.takeWhile fun c => c ≠ '='), some (String.ofList value))

def Shape.of (arg : String) : Shape :=
  match arg.toList with
  | a :: b :: cs =>
    if a = '-' then
      if b = '-' then
        if cs = [] then .dashes else .long (splitLong cs).1 (splitLong cs).2
      else .short b cs
    else .plain
  | _ => .plain

/-- What stands after the letter of a short option; an equals sign there is passed over. -/
def attached? : List Char → Option String
  | [] => none
  | c :: cs => some (String.ofList (if c = '=' then cs else c :: cs))

/-- The arguments of one place, as far as they have been read. A value in an argument of its own
is looked at when the next option or name comes, or at the end. -/
structure Progress where
  values : List (Opt × String)
  service : Option String
  pending : Option (Opt × Option String)
  trailing : Bool
deriving DecidableEq, Repr

namespace Progress

def start : Progress := ⟨[], none, none, false⟩

def get? (p : Progress) (o : Opt) : Option String :=
  (p.values.find? fun e => e.1 = o).map Prod.snd

def awaiting (p : Progress) : Bool :=
  match p.pending with
  | some (_, none) => true
  | _ => false

/-- Takes an option with its value, unless it is there already or does not accept the value. -/
def take (p : Progress) (o : Opt) (text : String) : Option Progress :=
  if (p.get? o).isNone ∧ o.accepts text = true then
    some { p with values := p.values ++ [(o, text)] }
  else none

def settle (p : Progress) : Option Progress :=
  match p.pending with
  | none => some p
  | some (_, none) => none
  | some (o, some text) => { p with pending := none }.take o text

end Progress

inductive Reading where
  | usage
  | version
  | go (progress : Progress)
deriving DecidableEq, Repr

def Reading.ofOption : Option Progress → Reading
  | some p => .go p
  | none => .usage

/-- An option with its value or, without one, the wait for it. -/
def readOption (p : Progress) (o : Opt) (value : Option String) : Reading :=
  match p.settle with
  | none => .usage
  | some p' =>
    match value with
    | some text => .ofOption (p'.take o text)
    | none => .go { p' with pending := some (o, none) }

def readVersion (p : Progress) : Reading :=
  match p.settle with
  | none => .usage
  | some _ => .version

/-- An argument that is neither an option nor the value of one. -/
def readName (takesService : Bool) (p : Progress) (arg : String) : Reading :=
  match p.settle with
  | none => .usage
  | some p' =>
    if takesService ∧ p'.service = none then .go { p' with service := some arg } else .usage

def readArgument (options : List Opt) (takesService : Bool) (p : Progress) (arg : String) :
    Reading :=
  if p.trailing then readName takesService p arg
  else
    match Shape.of arg with
    | .dashes => .go { p with trailing := true }
    | .long name value =>
      match options.find? fun o => o.long = name with
      | some o => readOption p o value
      | none => if name = "version" ∧ value = none then readVersion p else .usage
    | .short letter rest =>
      match options.find? fun o => o.short? = some letter with
      | some o => readOption p o (attached? rest)
      | none => if letter = 'V' then readVersion p else .usage
    | .plain =>
      match p.pending with
      | some (o, none) => .go { p with pending := some (o, some arg) }
      | _ => readName takesService p arg

def readAfter (verb : Verb) (p : Progress) : List String → Reading
  | [] =>
    match p.settle with
    | none => .usage
    | some p' => if verb.takesService ∧ p'.service = none then .usage else .go p'
  | arg :: args =>
    match readArgument verb.options verb.takesService p arg with
    | .go p' => readAfter verb p' args
    | other => other

structure Flow where
  ipDst : Option String
  ipSrc : Option String
  ipProto : Option Nat
  tcpSrc : Option Nat
  tcpDst : Option Nat
deriving DecidableEq, Repr

inductive Command where
  | start (service : String)
  | stop (service : String)
  | bind (service : String) (flow : Flow) (output : Option String) (register : Option RegisterId)
  | inspect (service : String)
  | schema
deriving DecidableEq, Repr

structure Invocation where
  config : Option String
  device : Option String
  json : Bool
  command : Command
deriving DecidableEq, Repr

inductive Request where
  | usage
  | version (verb : Option Verb)
  | run (invocation : Invocation)
deriving DecidableEq, Repr

def Progress.number? (p : Progress) (o : Opt) : Option Nat :=
  match p.get? o, o.limit? with
  | some text, some limit => numberUpTo? limit text
  | _, _ => none

def commandOf (verb : Verb) (p : Progress) : Command :=
  let service := p.service.getD ""
  match verb with
  | .start => .start service
  | .stop => .stop service
  | .bind =>
    .bind service
      ⟨p.get? .ipDst, p.get? .ipSrc, p.number? .ipProto, p.number? .tcpSrc, p.number? .tcpDst⟩
      (p.get? .output) ((p.number? .register).map UInt32.ofNat)
  | .inspect => .inspect service
  | .schema => .schema

/-- The value after the command, or else the one before it. -/
def Progress.prefer (after before : Progress) (o : Opt) : Option String :=
  match after.get? o with
  | some text => some text
  | none => before.get? o

def invocationOf (verb : Verb) (before after : Progress) : Invocation where
  config := after.prefer before .config
  device := after.prefer before .device
  json := after.prefer before .format = some "json"
  command := commandOf verb after

/-- Reads the arguments up to the command and those after it. What is pending before the command is
settled last. -/
def readBefore (p : Progress) : List String → Request
  | [] => .usage
  | arg :: args =>
    let proceed : Request :=
      match readArgument Opt.globals false p arg with
      | .go p' => readBefore p' args
      | .usage => .usage
      | .version => .version none
    if p.trailing || p.awaiting then proceed
    else
      match Verb.ofName? arg with
      | none => proceed
      | some verb =>
        match readAfter verb .start args with
        | .usage => .usage
        | .version => .version (some verb)
        | .go after =>
          match p.settle with
          | none => .usage
          | some before => .run (invocationOf verb before after)

def Request.read (args : List String) : Request := readBefore .start args

end CommandLine
end StatefulPipeline
