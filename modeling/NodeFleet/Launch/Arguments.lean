import NodeFleet.Desk

/-!
# NodeFleet.Launch.Arguments — reading the command line

A command line has general options, a verb, and the options and operands of the verb, among which
the general options may stand too.

* `Grammar`: the options of one level and the operands it takes.  `Grammar.read`: the words of a
  level.
* `Verb`: what can be ordered, with its grammar and the order that it stands for.
* `Invocation.ofWords`: the whole command line.

An option is given at most once on a level.  Its value is the rest of its word or the next word; a
next word that begins with a hyphen is no value, a lone hyphen apart.  After the word `--` every
word is an operand.
-/

namespace NodeFleet

/-- An option: the word after two hyphens, the letter after one, and whether it has a value. -/
structure OptionForm where
  long : String
  short? : Option Char
  hasValue : Bool
  deriving DecidableEq, Repr, Inhabited

/-- Why a command line is not carried out. -/
inductive Detour where
  /-- It asks for help. -/
  | help
  /-- It asks for the version. -/
  | version
  /-- It is not well formed. -/
  | misuse
  deriving DecidableEq, Repr, Inhabited

/-- What has been read of a level. -/
structure Given where
  /-- The options, each with its value; those without one have the empty value. -/
  options : List (String × String)
  operands : List String
  deriving DecidableEq, Repr, Inhabited

/-- What a level takes. -/
structure Grammar where
  options : List OptionForm
  /-- Whether a value suits an option. -/
  suits : String → String → Bool
  /-- Whether an operand may follow the operands before it. -/
  takes : List String → String → Bool
  /-- Whether the first operand ends the level: it is a verb. -/
  endsAtOperand : Bool
  /-- Whether the version can be asked for. -/
  tellsVersion : Bool

namespace Given

/-- Nothing yet. -/
def nothing : Given := ⟨[], []⟩

/-- Whether an option was given. -/
def has (g : Given) (long : String) : Bool := (g.options.lookup long).isSome

/-- The value of an option. -/
def value? (g : Given) (long : String) : Option String := g.options.lookup long

end Given

namespace Grammar

/-- Enters an option with its value. -/
def enter (g : Grammar) (given : Given) (form : OptionForm) (value : String) :
    Except Detour Given :=
  if given.has form.long || !g.suits form.long value then .error .misuse
  else .ok { given with options := (form.long, value) :: given.options }

/-- Enters an operand. -/
def enterOperand (g : Grammar) (given : Given) (word : String) : Except Detour Given :=
  if g.takes given.operands word then .ok { given with operands := given.operands ++ [word] }
  else .error .misuse

/-- The option with the given long form, or the detour that it asks for. -/
def longForm (g : Grammar) (long : String) : Except Detour OptionForm :=
  if long = "help" then .error .help
  else if long = "version" ∧ g.tellsVersion then .error .version
  else
    match g.options.find? fun form => form.long == long with
    | some form => .ok form
    | none => .error .misuse

/-- The option with the given letter, or the detour that it asks for. -/
def shortForm (g : Grammar) (letter : Char) : Except Detour OptionForm :=
  if letter = 'h' then .error .help
  else if letter = 'V' ∧ g.tellsVersion then .error .version
  else
    match g.options.find? fun form => form.short? == some letter with
    | some form => .ok form
    | none => .error .misuse

/-- Reads a word of two hyphens: the option may still need its value; one without a value takes
none. -/
def readLong (g : Grammar) (given : Given) (body : List Char) :
    Except Detour (Given × Option OptionForm) :=
  let name := body.takeWhile (· != '=')
  match body.drop name.length, g.longForm (.ofList name) with
  | [], .error detour => .error detour
  | _ :: _, .error _ => .error .misuse
  | [], .ok form =>
    if form.hasValue then .ok (given, some form)
    else (g.enter given form "").map fun given => (given, none)
  | _ :: value, .ok form =>
    if form.hasValue then (g.enter given form (.ofList value)).map fun given => (given, none)
    else .error .misuse

/-- Reads the letters after one hyphen: the last option may still need its value. -/
def readShort (g : Grammar) (given : Given) : List Char → Except Detour (Given × Option OptionForm)
  | [] => pure (given, none)
  | letter :: rest => do
    let form ← g.shortForm letter
    if form.hasValue then
      match rest with
      | [] => pure (given, some form)
      | '=' :: value | value => do
        let given ← g.enter given form (.ofList value)
        pure (given, none)
    else
      let given ← g.enter given form ""
      g.readShort given rest

/-- Whether a word begins like an option. -/
def looksLikeOption (word : String) : Bool := word.toList.head? == some '-' && word != "-"

/-- Reads a word that begins with a hyphen. -/
def readOption (g : Grammar) (given : Given) (word : String) :
    Except Detour (Given × Option OptionForm) :=
  match word.toList with
  | '-' :: '-' :: body => g.readLong given body
  | _ :: letters => g.readShort given letters
  | [] => .error .misuse

/-- Reads the words of a level; gives the words from the verb on, where the level ends at one.
`pending?` is an option that still needs its value. -/
def read (g : Grammar) (given : Given) (pending? : Option OptionForm) :
    List String → Except Detour (Given × List String)
  | [] => if pending?.isSome then throw .misuse else pure (given, [])
  | word :: rest =>
    match pending? with
    | some form =>
      if looksLikeOption word then throw .misuse
      else do
        let given ← g.enter given form word
        g.read given none rest
    | none =>
      if word = "--" then
        if g.endsAtOperand then if rest.isEmpty then pure (given, []) else throw .misuse
        else do
          let given ← rest.foldlM g.enterOperand given
          pure (given, [])
      else if looksLikeOption word then do
        let (given, pending?) ← g.readOption given word
        g.read given pending? rest
      else if g.endsAtOperand then pure (given, word :: rest)
      else do
        let given ← g.enterOperand given word
        g.read given none rest

end Grammar

/-! ## Verbs -/

/-- The operands of a verb. -/
inductive OperandKind where
  | none
  /-- At most one number. -/
  | number
  | many
  /-- One or more. -/
  | some
  deriving DecidableEq, Repr, Inhabited

namespace OperandKind

/-- Whether an operand may follow those before it. -/
def takes : OperandKind → List String → String → Bool
  | none, _, _ => false
  | number, before, word => before.isEmpty && (Amount.read? word).isSome
  | many, _, _ | some, _, _ => true

/-- Whether the operands are enough. -/
def isEnough : OperandKind → List String → Bool
  | some, operands => !operands.isEmpty
  | _, _ => true

end OperandKind

/-- Something that can be ordered from the command line. -/
structure Verb where
  name : String
  options : List OptionForm
  operands : OperandKind
  order : Given → Order

/-- The option that erases chain data. -/
def wipeOption : OptionForm := ⟨"wipe", none, false⟩

/-- The number that a word stands for. -/
def readNumber? (word? : Option String) : Option Amount := word?.bind Amount.read?

/-- Everything that can be ordered. -/
def verbs : List Verb :=
  [⟨"status", [], .many, fun g => .sweep g.operands⟩,
    ⟨"stop-daemon", [], .many, fun g => .stop g.operands⟩,
    ⟨"start", [wipeOption], .many, fun g => .start g.operands (g.has "wipe")⟩,
    ⟨"restart-wallet", [wipeOption], .none, fun g => .restart (g.has "wipe")⟩,
    ⟨"restart-wallet-hard", [wipeOption], .number, fun g =>
      .coldRestart (g.has "wipe") (readNumber? g.operands.head?)⟩,
    ⟨"generate-staking-config", [], .many, fun g => .writeStakingConfigs g.operands⟩,
    ⟨"promote", [⟨"staking-host", none, true⟩], .none, fun g => .promote (g.value? "staking-host")⟩,
    ⟨"install-binaries", [], .many, fun g => .installBinaries g.operands⟩,
    ⟨"transfer", [], .some, fun g => .transfer g.operands none⟩,
    ⟨"await-balance", [⟨"amount", none, true⟩], .many, fun g =>
      .awaitBalance g.operands (readNumber? (g.value? "amount"))⟩,
    ⟨"reboot", [], .many, fun g => .reboot g.operands⟩,
    ⟨"console", [], .many, fun g => .openConsoles g.operands⟩]

/-- The options that may stand before the verb and after it. -/
def generalOptions : List OptionForm :=
  [⟨"config", some 'c', true⟩, ⟨"verbose", some 'v', false⟩, ⟨"json-logs", none, false⟩,
    ⟨"json", none, false⟩]

/-- A path is not empty, and an amount is a number. -/
def suitsOption (long value : String) : Bool :=
  match long with
  | "config" => !value.isEmpty
  | "amount" => (Amount.read? value).isSome
  | _ => true

/-- The level before the verb. -/
def topGrammar : Grammar := ⟨generalOptions, suitsOption, fun _ _ => true, true, true⟩

/-- The level of a verb. -/
def Verb.grammar (v : Verb) : Grammar :=
  ⟨generalOptions ++ v.options, suitsOption, v.operands.takes, false, false⟩

/-- What a command line asks for. -/
structure Invocation where
  configPath? : Option String
  verbose : Bool
  jsonLogs : Bool
  json : Bool
  order : Order
  deriving DecidableEq, Repr, Inhabited

namespace Invocation

/-- What the words after `help` ask for: help, if they name a verb or nothing. -/
def helpOn : List String → Detour
  | [] => .help
  | [word] => if word = "help" || verbs.any fun v => v.name == word then .help else .misuse
  | _ => .misuse

/-- What two levels ask for; the level of the verb comes first. -/
def ofLevels (verb : Verb) (top inner : Given) : Invocation :=
  let either (long : String) : Bool := top.has long || inner.has long
  { configPath? := inner.value? "config" <|> top.value? "config"
    verbose := either "verbose"
    jsonLogs := either "json-logs"
    json := either "json"
    order := verb.order inner }

/-- What the words of a command line ask for. -/
def ofWords (words : List String) : Except Detour Invocation := do
  let (top, rest) ← topGrammar.read .nothing none words
  match rest with
  | [] => throw .misuse
  | name :: rest =>
    match verbs.find? fun v => v.name == name with
    | none => throw (if name = "help" then helpOn rest else .misuse)
    | some verb => do
      let (inner, _) ← verb.grammar.read .nothing none rest
      if verb.operands.isEnough inner.operands then pure (ofLevels verb top inner)
      else throw .misuse

end Invocation

end NodeFleet
