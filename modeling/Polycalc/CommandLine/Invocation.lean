namespace Polycalc.CommandLine

inductive Word where
  | escape
  | long (name : String) (value : Option String)
  | short (flags : List Char)
  | plain
  deriving DecidableEq

namespace Word

def attached? : List Char → Option String
  | [] => none
  | _ :: cs => some (String.ofList cs)

def ofChars : List Char → Word
  | ['-', '-'] => escape
  | '-' :: '-' :: cs =>
    let (name, value) := cs.span (· != '=')
    long (String.ofList name) (attached? value)
  | '-' :: c :: cs => short (c :: cs)
  | _ => plain

def ofText (s : String) : Word := ofChars s.toList

end Word

inductive Topic where
  | program
  | simplify
  | evaluate
  | batch
  | help
  deriving DecidableEq

inductive Command where
  | simplify (polynomial : String)
  | evaluate (polynomial argument : String)
  | batch
  deriving DecidableEq

structure Options where
  config : Option String
  json : Bool
  deriving DecidableEq

inductive Invocation where
  | help (topic : Topic)
  | version
  | command (options : Options) (command : Command)
  deriving DecidableEq

inductive Pending where
  | none
  | awaited
  | given (path : String)
  deriving DecidableEq

structure Flags where
  options : Options
  pending : Pending
  deriving DecidableEq

namespace Flags

def new : Flags := ⟨⟨none, false⟩, .none⟩

def setConfig (f : Flags) (path : String) : Option Flags :=
  if path.isEmpty ∨ f.options.config.isSome then none
  else some ⟨{ f.options with config := some path }, .none⟩

def settle (f : Flags) : Option Flags :=
  match f.pending with
  | .none => some f
  | .awaited => none
  | .given path => f.setConfig path

def awaitConfig (f : Flags) : Option Flags := do return { ← f.settle with pending := .awaited }

def setJson (f : Flags) : Option Flags := do
  let f ← f.settle
  if f.options.json then none else some { f with options := { f.options with json := true } }

def within (inner outer : Flags) : Options :=
  ⟨inner.options.config <|> outer.options.config, inner.options.json || outer.options.json⟩

end Flags

inductive Tail where
  | help
  | arguments (flags : Flags) (values : List String)

namespace Tail

inductive Next where
  | help
  | more (flags : Flags) (values : List String)
  | plain (flags : Flags)

def take (flags : Flags) (values : List String) (word : String) : Option Next :=
  match flags.pending with
  | .awaited => some (.more { flags with pending := .given word } values)
  | _ => do return .more (← flags.settle) (values ++ [word])

def next (places : Nat) (flags : Flags) (values : List String) (word : String) : Option Next :=
  let free := decide (values.length < places)
  match Word.ofText word with
  | .escape => if flags.pending = .awaited then none else do return .plain (← flags.settle)
  | .long "config" none => do return .more (← flags.awaitConfig) values
  | .long "config" (some path) => do return .more (← (← flags.settle).setConfig path) values
  | .long "json" none => do return .more (← flags.setJson) values
  | .long "help" none => do
    let _ ← flags.settle
    return .help
  | .long "json" (some _) | .long "help" (some _) => none
  | .long .. => if free then take flags values word else none
  | .short cs =>
    if free && cs.any (· != 'h') then take flags values word
    else if cs.head? = some 'h' then do
      let _ ← flags.settle
      return .help
    else none
  | .plain => if free ∨ flags.pending = .awaited then take flags values word else none

def read (places : Nat) (flags : Flags) (values : List String) : List String → Option Tail
  | [] => do return .arguments (← flags.settle) values
  | word :: rest => do
    match ← next places flags values word with
    | .help => return .help
    | .more flags values => read places flags values rest
    | .plain flags => return .arguments flags (values ++ rest)

end Tail

namespace Invocation

def ofTail (topic : Topic) (outer : Flags) (command? : List String → Option Command) :
    Tail → Option Invocation
  | .help => some (help topic)
  | .arguments flags values => do
    let c ← command? values
    return command (flags.within (← outer.settle)) c

def simplify? : List String → Option Command
  | [p] => some (.simplify p)
  | _ => none

def evaluate? : List String → Option Command
  | [p, x] => some (.evaluate p x)
  | _ => none

def batch? : List String → Option Command
  | [] => some .batch
  | _ => none

def help? : List String → Option Invocation
  | [] => some (help .program)
  | ["simplify"] => some (help .simplify)
  | ["evaluate"] => some (help .evaluate)
  | ["batch"] => some (help .batch)
  | ["help"] => some (help .help)
  | _ => none

def ofName? (outer : Flags) (name : String) (rest : List String) : Option (Option Invocation) :=
  match name with
  | "simplify" => some (Tail.read 1 .new [] rest >>= ofTail .simplify outer simplify?)
  | "evaluate" => some (Tail.read 2 .new [] rest >>= ofTail .evaluate outer evaluate?)
  | "batch" => some (Tail.read 0 .new [] rest >>= ofTail .batch outer batch?)
  | "help" => some (help? rest)
  | _ => none

def readFrom (flags : Flags) : List String → Option Invocation
  | [] => none
  | word :: rest =>
    if flags.pending = .awaited ∧ Word.ofText word = .plain then
      readFrom { flags with pending := .given word } rest
    else match ofName? flags word rest with
      | some out => out
      | none =>
        match Word.ofText word with
        | .long "config" none => do readFrom (← flags.awaitConfig) rest
        | .long "config" (some path) => do readFrom (← (← flags.settle).setConfig path) rest
        | .long "json" none => do readFrom (← flags.setJson) rest
        | .long "help" none | .short ('h' :: _) => flags.settle.map fun _ => help .program
        | .long "version" none | .short ('V' :: _) => flags.settle.map fun _ => version
        | _ => none

def read? (words : List String) : Option Invocation := readFrom .new words

end Invocation

end Polycalc.CommandLine
