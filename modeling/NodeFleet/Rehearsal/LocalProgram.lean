import NodeFleet.Duration
import NodeFleet.Local.Surroundings
import NodeFleet.Text.Blank
import NodeFleet.Text.Letter

/-!
# NodeFleet.Rehearsal.LocalProgram — programs of the operator's machine, as a rehearsal plays them

A rehearsal starts no real program.  It plays a few small ones, among them a shell for lists of
simple commands, and knows of more that they could be started.  Nothing outside of
`NodeFleet.Rehearsal.Basic` plays programs.

* `Finished`: what a program has printed, how it ended and how long it took.
* `playSimple`: the small programs.  `ShellScript.play`: a list of simple commands.
-/

namespace NodeFleet

/-- A program that has ended. -/
structure Finished where
  output : List UInt8
  errors : List UInt8
  /-- The exit status; nothing when a signal ended the program. -/
  status : Option Nat
  time : Duration

namespace Finished

/-- A program that prints a text and ends well. -/
def printing (bytes : List UInt8) : Finished := ⟨bytes, [], some 0, .zero⟩

/-- A program that prints nothing and ends with a status. -/
def silent (status : Nat) : Finished := ⟨[], [], some status, .zero⟩

/-- A program that fails with a message. -/
def failing (message : String) (status : Nat) : Finished :=
  ⟨[], (message ++ "\n").toUTF8.data.toList, some status, .zero⟩

/-- What two programs leave that run one after the other. -/
def andThen (a b : Finished) : Finished :=
  ⟨a.output ++ b.output, a.errors ++ b.errors, b.status, ⟨a.time.millis + b.time.millis⟩⟩

end Finished

/-- The bytes of a text. -/
def bytesOf (s : String) : List UInt8 := s.toUTF8.data.toList

/-! ## Escapes of a format -/

/-- The value of an octal digit. -/
def octalDigit? (c : Char) : Option Nat := if '0' ≤ c ∧ c ≤ '7' then some (c.toNat - 48) else none

/-- The character that a letter after a backslash stands for. -/
def letterEscape? (c : Char) : Option Char :=
  [('n', '\n'), ('t', '\t'), ('r', '\r'), ('\\', '\\'), ('a', '\x07'), ('b', '\x08'), ('f', '\x0c'),
    ('v', '\x0b'), ('"', '"')].lookup c

/-- The digits at the beginning, at most `most` of them, as a number, and what follows them. -/
def readDigits (digit? : Char → Option Nat) (base : Nat) : Nat → Nat → List Char → Nat × List Char
  | 0, value, cs => (value, cs)
  | _ + 1, value, [] => (value, [])
  | most + 1, value, c :: cs =>
    match digit? c with
    | some d => readDigits digit? base most (value * base + d) cs
    | none => (value, c :: cs)

/-- The bytes of an escape whose backslash has been read, and what follows it. -/
def readEscape : List Char → List UInt8 × List Char
  | [] => (bytesOf "\\", [])
  | c :: cs =>
    match letterEscape? c, octalDigit? c with
    | some d, _ => (bytesOf (String.singleton d), cs)
    | none, some _ =>
      let (value, rest) := readDigits octalDigit? 8 3 0 (c :: cs)
      ([UInt8.ofNat value], rest)
    | none, none =>
      if c = 'x' then
        let (value, rest) := readDigits Text.hexDigit? 16 2 0 cs
        ([UInt8.ofNat value], rest)
      else (bytesOf (.ofList ['\\', c]), cs)

/-- Prints a format once; gives the arguments that are left. -/
def printOnce : Nat → List Char → List String → List UInt8 × List String
  | 0, _, args => ([], args)
  | _ + 1, [], args => ([], args)
  | fuel + 1, '\\' :: cs, args =>
    let (bytes, rest) := readEscape cs
    let (more, args) := printOnce fuel rest args
    (bytes ++ more, args)
  | fuel + 1, '%' :: '%' :: cs, args =>
    let (more, args) := printOnce fuel cs args
    (bytesOf "%" ++ more, args)
  | fuel + 1, '%' :: c :: cs, args =>
    if c = 's' ∨ c = 'd' ∨ c = 'i' ∨ c = 'b' then
      let (more, rest) := printOnce fuel cs args.tail
      (bytesOf (args.headD (if c = 'd' ∨ c = 'i' then "0" else "")) ++ more, rest)
    else
      let (more, rest) := printOnce fuel (c :: cs) args
      (bytesOf "%" ++ more, rest)
  | fuel + 1, c :: cs, args =>
    let (more, args) := printOnce fuel cs args
    (bytesOf (String.singleton c) ++ more, args)

/-- Prints a format as often as it takes arguments. -/
def printFormat (format : String) : Nat → List String → List UInt8
  | 0, _ => []
  | fuel + 1, args =>
    let (bytes, rest) := printOnce (format.length + 1) format.toList args
    if rest.isEmpty || rest.length = args.length then bytes
    else bytes ++ printFormat format fuel rest

/-! ## Small programs -/

/-- A number of seconds with a fraction of at most three digits. -/
def secondsOf? (s : String) : Option Duration :=
  match Text.split '.' s with
  | [whole] => whole.toNat?.map .ofSeconds
  | [whole, fraction] => do
    let n ← if whole.isEmpty then some 0 else whole.toNat?
    let padded := (fraction.toList ++ ['0', '0', '0']).take 3
    let m ← (String.ofList padded).toNat?
    pure ⟨1000 * n + m⟩
  | _ => none

/-- Prints the contents of files, one after the other. -/
def printFiles (s : Surroundings) : List String → Finished
  | [] => .silent 0
  | path :: rest =>
    let first :=
      match s.read path with
      | .ok contents => Finished.printing contents.data.toList
      | .error e =>
        let reason := ((e.message.splitOn " (os").headD "")
        Finished.failing ("cat: " ++ path ++ ": " ++ reason) 1
    let others := printFiles s rest
    let status := if first.status = some 0 then others.status else first.status
    { first.andThen others with status }

/-- Plays a small program, if it is one. -/
def playSimple (s : Surroundings) (program : String) (args : List String) : Option Finished :=
  match program, args with
  | "true", _ => some (.silent 0)
  | "false", _ => some (.silent 1)
  | "echo", "-n" :: rest => some (.printing (bytesOf (Text.join " " rest)))
  | "echo", _ => some (.printing (bytesOf (Text.join " " args ++ "\n")))
  | "printf", format :: rest => some (.printing (printFormat format (rest.length + 1) rest))
  | "sleep", [length] => (secondsOf? length).map fun time => { Finished.silent 0 with time }
  | "cat", _ => some (printFiles s args)
  | _, _ => none

/-! ## A list of simple commands -/

namespace ShellScript

/-- When a command of a list is run. -/
inductive Link where
  | always
  | ifGood
  | ifBad
  deriving DecidableEq, Repr

/-- A part of a script: a word, or what stands between words. -/
inductive Token where
  | word (text : String)
  | link (l : Link)
  | toErrors
  deriving DecidableEq, Repr

/-- The name of a variable at the beginning, and what follows it. -/
def readName (cs : List Char) : List Char × List Char :=
  (cs.takeWhile fun c => c.isAlphanum || c == '_', cs.dropWhile fun c => c.isAlphanum || c == '_')

/-- Where a character of a script stands: outside quotes, or in one of the two kinds. -/
inductive Quotes where
  | outside
  | single
  | double
  deriving DecidableEq, Repr

/-- The parts of a script.  `word` holds the letters of the word that is being read, if there is
one. -/
def tokens (environment : List (String × String)) :
    Nat → Quotes → Option (List Char) → List Char → List Token
  | 0, _, _, _ => []
  | fuel + 1, quotes, word, cs =>
    let finished := (word.map fun letters => Token.word (.ofList letters)).toList
    let letters := word.getD []
    let go := tokens environment fuel
    match quotes, cs with
    | _, [] => finished
    | .single, '\'' :: rest => go .outside (some letters) rest
    | .single, c :: rest => go .single (some (letters ++ [c])) rest
    | .double, '"' :: rest => go .outside (some letters) rest
    | .outside, '\'' :: rest => go .single (some letters) rest
    | .outside, '"' :: rest => go .double (some letters) rest
    | .double, '\\' :: c :: rest =>
      let kept := if c = '"' ∨ c = '\\' ∨ c = '$' then [c] else ['\\', c]
      go .double (some (letters ++ kept)) rest
    | .outside, '\\' :: c :: rest => go .outside (some (letters ++ [c])) rest
    | q, '$' :: '$' :: rest => go q (some (letters ++ ['$', '$'])) rest
    | q, '$' :: rest =>
      let (name, after) := readName rest
      if name.isEmpty then go q (some (letters ++ ['$'])) rest
      else go q (some (letters ++ ((environment.lookup (.ofList name)).getD "").toList)) after
    | .double, c :: rest => go .double (some (letters ++ [c])) rest
    | .outside, '&' :: '&' :: rest => finished ++ .link .ifGood :: go .outside none rest
    | .outside, '|' :: '|' :: rest => finished ++ .link .ifBad :: go .outside none rest
    | .outside, ';' :: rest | .outside, '\n' :: rest =>
      finished ++ .link .always :: go .outside none rest
    | .outside, '1' :: '>' :: '&' :: '2' :: rest | .outside, '>' :: '&' :: '2' :: rest =>
      finished ++ .toErrors :: go .outside none rest
    | .outside, c :: rest =>
      if c = ' ' ∨ c = '\t' then finished ++ go .outside none rest
      else go .outside (some (letters ++ [c])) rest

/-- A command of a list. -/
structure Simple where
  link : Link
  words : List String
  toErrors : Bool

/-- The commands of a list. -/
def commands (current : Simple) : List Token → List Simple
  | [] => [current]
  | .word w :: rest => commands { current with words := current.words ++ [w] } rest
  | .toErrors :: rest => commands { current with toErrors := true } rest
  | .link l :: rest => current :: commands ⟨l, [], false⟩ rest

/-- How a list stands: what it has left so far, and whether it is over. -/
structure Progress where
  finished : Finished
  isOver : Bool

/-- Runs a command of a list. -/
def runCommand (s : Surroundings) (words : List String) (last : Option Nat) : Progress :=
  match words with
  | [] => ⟨.silent (last.getD 0), false⟩
  | ":" :: _ => ⟨.silent 0, false⟩
  | ["exit"] => ⟨.silent (last.getD 0), true⟩
  | "exit" :: status :: _ => ⟨.silent (status.toNat?.getD 2 % 256), true⟩
  | "kill" :: args =>
    if args.contains "$$" then ⟨⟨[], [], none, .zero⟩, true⟩ else ⟨.silent 1, false⟩
  | program :: args =>
    match playSimple s program args with
    | some finished => ⟨finished, false⟩
    | none => ⟨.failing ("sh: 1: " ++ program ++ ": not found") 127, false⟩

/-- Whether a command is run after the status so far. -/
def Link.allows (link : Link) (status : Option Nat) : Bool :=
  match link with
  | always => true
  | ifGood => status == some 0
  | ifBad => status != some 0

/-- Takes a list one command further. -/
def advance (s : Surroundings) (p : Progress) (c : Simple) : Progress :=
  if p.isOver || !c.link.allows p.finished.status then p
  else
    let q := runCommand s c.words p.finished.status
    let printed :=
      if c.toErrors then
        { q.finished with output := [], errors := q.finished.errors ++ q.finished.output }
      else q.finished
    ⟨p.finished.andThen printed, q.isOver⟩

/-- Plays a script. -/
def play (s : Surroundings) (script : String) : Finished :=
  let parts := tokens s.environment (2 * script.length + 2) .outside none script.toList
  ((commands ⟨.always, [], false⟩ parts).foldl (advance s) ⟨.silent 0, false⟩).finished

end ShellScript

end NodeFleet
