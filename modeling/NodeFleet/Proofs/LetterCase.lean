import Mathlib.Data.List.Forall2
import NodeFleet.Daemon.Reading
import NodeFleet.Proofs.ShellWords

/-!
# NodeFleet.Proofs.LetterCase — an answer is read alike in capital and in small letters

A daemon is free to write its answers in capital or in small letters.  Every rule of reading but one
looks at an answer as if it were in small letters: what an answer is taken for, and the number it
holds, do not change with the case of its letters, and a text that is taken from it changes in case
only.  The exception is the search for a hash in a listing, where letters are compared as they are.

* `Text.folded`: a text in small letters.  `Text.SameLetters`: two texts that differ in case only.
* `Amount.read?_folded`: a number is the same in either case.
* `Reply.folded`, `Reading.folded`: a reply and a reading with all texts in small letters.
* `ReplyKind.read_folded`: reading a reply, and reading it in small letters.
* `Reading.Alike`, `ReplyKind.read_alike`: replies that differ in case are read alike.
-/

namespace NodeFleet

namespace Text

/-! ## Single characters -/

section Chars

variable {c d : Char}

/-- Only the capital letters of the Latin alphabet are changed. -/
theorem foldCase_cases (c : Char) : foldCase c = c ∨
    (65 ≤ c.toNat ∧ c.toNat ≤ 90 ∧ (foldCase c).toNat = c.toNat + 32) := by
  unfold foldCase Char.toLower
  split
  · rename_i hcapital
    simp only [UInt32.le_iff_toNat_le, ge_iff_le] at hcapital
    have hlow : 65 ≤ c.toNat := hcapital.1
    have hhigh : c.toNat ≤ 90 := hcapital.2
    refine .inr ⟨hlow, hhigh, ?_⟩
    show (c.val + 32).toNat = c.val.toNat + 32
    rw [UInt32.toNat_add]
    exact Nat.mod_eq_of_lt (show c.toNat + 32 < 4294967296 by omega)
  · exact .inl rfl

/-- The character is no letter of the Latin alphabet. -/
def IsSymbol (c : Char) : Prop :=
  ¬ (65 ≤ c.toNat ∧ c.toNat ≤ 90) ∧ ¬ (97 ≤ c.toNat ∧ c.toNat ≤ 122)

instance (c : Char) : Decidable (IsSymbol c) := inferInstanceAs (Decidable (_ ∧ _))

/-- A character that is no letter comes from itself only. -/
theorem foldCase_eq_iff (hd : IsSymbol d) : foldCase c = d ↔ c = d := by
  obtain ⟨hcapital, hsmall⟩ := hd
  constructor
  · rintro rfl
    rcases foldCase_cases c with h | ⟨hlow, hhigh, h⟩
    · exact h.symm
    · omega
  · rintro rfl
    rcases foldCase_cases c with h | ⟨hlow, hhigh, -⟩
    · exact h
    · omega

theorem foldCase_foldCase (c : Char) : foldCase (foldCase c) = foldCase c := by
  rcases foldCase_cases c with h | ⟨hlow, hhigh, h⟩
  · rw [h, h]
  · rcases foldCase_cases (foldCase c) with h' | ⟨-, hhigh', -⟩
    · exact h'
    · omega

theorem isBlank_foldCase (c : Char) : isBlank (foldCase c) = isBlank c := by
  rcases foldCase_cases c with h | ⟨hlow, hhigh, h⟩
  · rw [h]
  · -- neither a capital letter nor a small one is a blank
    have hblank (d : Char) (hd : 65 ≤ d.toNat ∧ d.toNat ≤ 122) : isBlank d = false := by
      simp only [isBlank, Bool.or_eq_false_iff, Bool.and_eq_false_iff, decide_eq_false_iff_not,
        beq_eq_false_iff_ne]
      omega
    rw [hblank c (by omega), hblank (foldCase c) (by omega)]

theorem isDigit_iff : c.isDigit = true ↔ 48 ≤ c.toNat ∧ c.toNat ≤ 57 := by
  simp only [Char.isDigit, UInt32.le_iff_toNat_le, ge_iff_le, Bool.and_eq_true, decide_eq_true_eq]
  exact Iff.rfl

theorem foldCase_of_isDigit (h : c.isDigit = true) : foldCase c = c := by
  rw [isDigit_iff] at h
  rcases foldCase_cases c with hsame | ⟨hlow, -, -⟩
  · exact hsame
  · omega

theorem isDigit_foldCase (c : Char) : (foldCase c).isDigit = c.isDigit := by
  rcases foldCase_cases c with h | ⟨hlow, hhigh, h⟩
  · rw [h]
  · rw [Bool.eq_iff_iff, isDigit_iff, isDigit_iff]
    omega

/-- The letter of an exponent, in either case. -/
theorem foldCase_exponent (c : Char) :
    (foldCase c = 'e' ∨ foldCase c = 'E') ↔ (c = 'e' ∨ c = 'E') := by
  rcases foldCase_cases c with h | ⟨hlow, hhigh, h⟩
  · rw [h]
  · have hsmall : foldCase c = 'e' ↔ c = 'E' := by
      rw [← Char.toNat_inj, ← Char.toNat_inj, h]
      show c.toNat + 32 = 69 + 32 ↔ c.toNat = 69
      omega
    have hnot : foldCase c ≠ 'E' ∧ c ≠ 'e' := by
      refine ⟨fun heq => ?_, fun heq => ?_⟩
      · have hcode : (foldCase c).toNat = 69 := congrArg Char.toNat heq
        omega
      · have hcode : c.toNat = 101 := congrArg Char.toNat heq
        omega
    rw [hsmall, or_iff_left hnot.1, or_iff_right hnot.2]

end Chars

/-! ## Texts -/

/-- The text in small letters. -/
def folded (s : String) : String := .ofList (s.toList.map foldCase)

/-- The two texts differ in the case of letters only. -/
def SameLetters (s t : String) : Prop := folded s = folded t

instance (s t : String) : Decidable (SameLetters s t) := inferInstanceAs (Decidable (_ = _))

section Strings

variable {s : String} {p : Char → Bool} {cs : List Char}

theorem toList_folded (s : String) : (folded s).toList = s.toList.map foldCase :=
  String.toList_ofList

theorem map_foldCase_foldCase (cs : List Char) :
    (cs.map foldCase).map foldCase = cs.map foldCase := by
  rw [List.map_map]
  exact List.map_congr_left fun c _ => foldCase_foldCase c

theorem folded_folded (s : String) : folded (folded s) = folded s := by
  rw [← String.toList_inj, toList_folded, toList_folded, map_foldCase_foldCase]

theorem folded_eq_empty_iff : folded s = "" ↔ s = "" := by
  rw [← String.toList_inj, toList_folded, ← String.toList_inj]
  simp

theorem isEmpty_folded (s : String) : (folded s).isEmpty = s.isEmpty := by
  rw [Bool.eq_iff_iff]
  simp [folded_eq_empty_iff]

theorem length_folded (s : String) : (folded s).length = s.length := by
  simp [← String.length_toList, toList_folded]

theorem mentions_folded (phrase s : String) : mentions phrase (folded s) = mentions phrase s := by
  unfold mentions
  rw [toList_folded, map_foldCase_foldCase]

theorem isBlankText_folded (s : String) : isBlankText (folded s) = isBlankText s := by
  unfold isBlankText
  rw [toList_folded, List.all_map]
  exact congrArg (s.toList.all ·) (funext isBlank_foldCase)

/-- What is trimmed away is the same when case makes no difference to it. -/
theorem stripChars_folded (hp : ∀ c, p (foldCase c) = p c) (cs : List Char) :
    stripChars p (cs.map foldCase) = (stripChars p cs).map foldCase := by
  have hcomp : p ∘ foldCase = p := funext hp
  unfold stripChars
  rw [List.dropWhile_map, hcomp, ← List.map_reverse, List.dropWhile_map, hcomp, ← List.map_reverse]

theorem trim_folded (s : String) : trim (folded s) = folded (trim s) := by
  rw [← String.toList_inj, toList_folded, trim, trim, String.toList_ofList, String.toList_ofList,
    toList_folded, stripChars_folded isBlank_foldCase]

theorem trimBoth_folded {q : Char} (hq : IsSymbol q) (s : String) :
    trimBoth q (folded s) = folded (trimBoth q s) := by
  have hsame (c : Char) : (foldCase c == q) = (c == q) := by
    rw [Bool.eq_iff_iff, beq_iff_eq, beq_iff_eq, foldCase_eq_iff hq]
  rw [← String.toList_inj, toList_folded, trimBoth, trimBoth, String.toList_ofList,
    String.toList_ofList, toList_folded, stripChars_folded hsame]

theorem folded_append (s t : String) : folded (s ++ t) = folded s ++ folded t := by
  rw [← String.toList_inj, toList_folded]
  simp [toList_folded]

theorem join_folded {sep : String} (hsep : folded sep = sep) (lines : List String) :
    join sep (lines.map folded) = folded (join sep lines) := by
  induction lines with
  | nil => rfl
  | cons line lines ih =>
    cases lines with
    | nil => simp [join_singleton]
    | cons next lines =>
      rw [List.map_cons] at ih
      rw [List.map_cons, List.map_cons, join_cons_cons, join_cons_cons, ih, folded_append,
        folded_append, hsep]

end Strings

end Text

/-! ## Numbers -/

namespace Amount

variable {cs ds : List Char}

/-- Digits have no case. -/
theorem map_foldCase_digits (h : ∀ c ∈ ds, c.isDigit = true) : ds.map Text.foldCase = ds := by
  conv_rhs => rw [← List.map_id ds]
  exact List.map_congr_left fun c hc => Text.foldCase_of_isDigit (h c hc)

theorem takeWhile_isDigit_folded (cs : List Char) :
    (cs.map Text.foldCase).takeWhile Char.isDigit = cs.takeWhile Char.isDigit := by
  have hcomp : Char.isDigit ∘ Text.foldCase = Char.isDigit := funext Text.isDigit_foldCase
  rw [List.takeWhile_map, hcomp]
  exact map_foldCase_digits fun c hc => List.all_eq_true.mp List.all_takeWhile c hc

theorem dropWhile_isDigit_folded (cs : List Char) :
    (cs.map Text.foldCase).dropWhile Char.isDigit =
      (cs.dropWhile Char.isDigit).map Text.foldCase := by
  have hcomp : Char.isDigit ∘ Text.foldCase = Char.isDigit := funext Text.isDigit_foldCase
  rw [List.dropWhile_map, hcomp]

theorem all_isDigit_folded (cs : List Char) :
    (cs.map Text.foldCase).all Char.isDigit = cs.all Char.isDigit := by
  rw [List.all_map]
  exact congrArg (cs.all ·) (funext Text.isDigit_foldCase)

/-- A sign has no case. -/
theorem readSign_folded (cs : List Char) :
    readSign (cs.map Text.foldCase) = ((readSign cs).1, (readSign cs).2.map Text.foldCase) := by
  cases cs with
  | nil => rfl
  | cons c cs =>
    by_cases hminus : c = '-'
    · subst hminus
      rfl
    by_cases hplus : c = '+'
    · subst hplus
      rfl
    have hminus' : Text.foldCase c ≠ '-' := mt (Text.foldCase_eq_iff (by decide)).mp hminus
    have hplus' : Text.foldCase c ≠ '+' := mt (Text.foldCase_eq_iff (by decide)).mp hplus
    simp [readSign, hminus, hplus, hminus', hplus']

theorem onlyDigits?_folded (cs : List Char) :
    onlyDigits? (cs.map Text.foldCase) = onlyDigits? cs := by
  unfold onlyDigits?
  rw [all_isDigit_folded, List.isEmpty_map]
  split
  · rfl
  · rename_i hdigits
    rw [map_foldCase_digits (by simp_all)]

theorem exponentValue?_folded (cs : List Char) :
    exponentValue? onlyDigits? (cs.map Text.foldCase) = exponentValue? onlyDigits? cs := by
  simp only [exponentValue?, readExponent?, readSign_folded, onlyDigits?_folded]

/-- What stands after the digits: nothing, or an exponent. -/
def scaledBy? (value : Int → Amount) : List Char → Option Amount
  | [] => some (value 0)
  | c :: cs => if c = 'e' ∨ c = 'E' then (exponentValue? onlyDigits? cs).map value else none

theorem scaledBy?_folded (value : Int → Amount) (cs : List Char) :
    scaledBy? value (cs.map Text.foldCase) = scaledBy? value cs := by
  cases cs with
  | nil => rfl
  | cons c cs =>
    simp only [List.map_cons, scaledBy?, exponentValue?_folded, Text.foldCase_exponent]

/-- The digits after a point, if there is one, and what follows. -/
def fractionOf : List Char → List Char × List Char
  | '.' :: cs => (cs.takeWhile Char.isDigit, cs.dropWhile Char.isDigit)
  | cs => ([], cs)

theorem fractionOf_folded (cs : List Char) : fractionOf (cs.map Text.foldCase) =
    ((fractionOf cs).1, (fractionOf cs).2.map Text.foldCase) := by
  cases cs with
  | nil => rfl
  | cons c cs =>
    by_cases hpoint : c = '.'
    · subst hpoint
      show ((cs.map Text.foldCase).takeWhile Char.isDigit,
        (cs.map Text.foldCase).dropWhile Char.isDigit) = _
      rw [takeWhile_isDigit_folded, dropWhile_isDigit_folded]
      rfl
    · have hpoint' : Text.foldCase c ≠ '.' := mt (Text.foldCase_eq_iff (by decide)).mp hpoint
      simp [fractionOf, hpoint, hpoint']

theorem readDigits?_eq (negative : Bool) (cs : List Char) : readDigits? negative cs =
    let whole := cs.takeWhile Char.isDigit
    let (fraction, rest) := fractionOf (cs.dropWhile Char.isDigit)
    if whole.isEmpty && fraction.isEmpty then none
    else scaledBy? (fun exponent =>
      ofDecimal negative (digitsValue (whole ++ fraction)) (exponent - fraction.length)) rest := rfl

theorem readDigits?_folded (negative : Bool) (cs : List Char) :
    readDigits? negative (cs.map Text.foldCase) = readDigits? negative cs := by
  simp only [readDigits?_eq, takeWhile_isDigit_folded, dropWhile_isDigit_folded, fractionOf_folded,
    scaledBy?_folded]

theorem readUnsigned?_folded (negative : Bool) (cs : List Char) :
    readUnsigned? negative (cs.map Text.foldCase) = readUnsigned? negative cs := by
  have hword : (cs.map Text.foldCase).map Char.toLower = cs.map Char.toLower :=
    Text.map_foldCase_foldCase cs
  unfold readUnsigned?
  rw [hword, readDigits?_folded]

/-- A number is the same in capital and in small letters. -/
theorem read?_folded (s : String) : read? (Text.folded s) = read? s := by
  simp only [read?, Text.toList_folded, readSign_folded, readUnsigned?_folded]

end Amount

/-! ## Replies and readings -/

namespace Reply

/-- The reply in small letters. -/
def folded (reply : Reply) : Reply := { reply with lines := reply.lines.map Text.folded }

variable (reply : Reply)

theorem text_folded : reply.folded.text = Text.folded reply.text :=
  Text.join_folded (by decide) reply.lines

theorem isBlank_folded : reply.folded.isBlank = reply.isBlank := by
  unfold isBlank folded
  rw [List.all_map]
  exact congrArg (reply.lines.all ·) (funext Text.isBlankText_folded)

theorem firstLine?_folded : reply.folded.firstLine? = reply.firstLine?.map Text.folded := by
  have htrim : Text.trim ∘ Text.folded = Text.folded ∘ Text.trim := funext Text.trim_folded
  have hempty : (fun line => !line.isEmpty) ∘ Text.folded = fun line => !line.isEmpty :=
    funext fun line => congrArg Bool.not (Text.isEmpty_folded line)
  unfold firstLine? folded
  rw [List.map_map, htrim, ← List.map_map, List.find?_map, hempty]

end Reply

namespace Reading

/-- Two readings that say the same, in texts that differ in case only. -/
inductive Alike : Reading → Reading → Prop
  | running (up : Bool) : Alike (running up) (running up)
  | present (found : Bool) : Alike (present found) (present found)
  | balance (amount : Amount) : Alike (balance amount) (balance amount)
  | confirmed (seen : Bool) : Alike (confirmed seen) (confirmed seen)
  | accepted : Alike accepted accepted
  | token {word word' : String} (h : Text.SameLetters word word') : Alike (token word) (token word')
  | rejected {reason reason' : String} (h : Text.SameLetters reason reason') :
    Alike (rejected reason) (rejected reason')
  | unrecognized {text text' : String} (h : Text.SameLetters text text') :
    Alike (unrecognized text) (unrecognized text')

namespace Alike

variable {r r' r'' : Reading}

theorem refl (r : Reading) : r.Alike r := by
  cases r <;> constructor <;> rfl

theorem symm (h : r.Alike r') : r'.Alike r := by
  cases h <;> constructor <;> exact Eq.symm ‹_›

theorem trans (h : r.Alike r') (h' : r'.Alike r'') : r.Alike r'' := by
  cases h <;> cases h' <;> constructor <;> exact Eq.trans ‹_› ‹_›

theorem classification (h : r.Alike r') : r.classification = r'.classification := by
  cases h <;> rfl

end Alike

end Reading

section Rules

variable (reply : Reply)

theorem processFound_folded : processFound reply.folded = processFound reply := by
  unfold processFound
  rw [reply.text_folded, Text.trim_folded, Text.length_folded]

theorem mentionsError_folded (text : String) :
    mentionsError (Text.folded text) = mentionsError text := Text.mentions_folded "error" text

theorem saysNotRunning_folded (text : String) :
    saysNotRunning (Text.folded text) = saysNotRunning text := Text.mentions_folded _ text

theorem token_folded :
    token reply.folded = ((token reply).map Text.folded).mapError Text.folded := by
  unfold token
  rw [reply.firstLine?_folded]
  cases reply.firstLine? with
  | none => rfl
  | some line =>
    simp only [Option.map_some, Text.mentions_folded,
      Text.trimBoth_folded (q := '"') (by decide)]
    split <;> rfl

theorem readBalance_folded : (readBalance reply.folded).Alike (readBalance reply) := by
  unfold readBalance
  rw [reply.firstLine?_folded]
  cases reply.firstLine? with
  | none => exact .unrecognized rfl
  | some line =>
    simp only [Option.map_some, Amount.read?_folded, mentionsError_folded]
    cases Amount.read? line with
    | some amount => exact .balance amount
    | none =>
      by_cases herror : mentionsError line
      · simp only [herror, if_true]
        exact .rejected (Text.folded_folded line)
      · simp only [herror]
        exact .unrecognized (Text.folded_folded line)

theorem readFileChange_folded : (readFileChange reply.folded).Alike (readFileChange reply) := by
  have hstatus : reply.folded.status = reply.status := rfl
  unfold readFileChange
  simp only [reply.text_folded, Text.mentions_folded, Text.isEmpty_folded, hstatus]
  split
  · split
    · exact .rejected rfl
    · exact .rejected (Text.folded_folded reply.text)
  · exact .accepted

/-- A reply in small letters is read like the reply, unless a hash is looked for in it. -/
theorem ReplyKind.read_folded {kind : ReplyKind} (hkind : ∀ hash, kind ≠ .outputs hash) :
    (kind.read reply.folded).Alike (kind.read reply) := by
  have htext : Text.SameLetters (Text.folded reply.text) reply.text :=
    Text.folded_folded reply.text
  -- the three kinds that ask for a token read it in one way
  have htoken : (privateKey.read reply.folded).Alike (privateKey.read reply) := by
    simp only [ReplyKind.read, token_folded]
    cases token reply with
    | ok word => exact .token (Text.folded_folded word)
    | error reason => exact .rejected (Text.folded_folded reason)
  cases kind with
  | outputs hash => exact absurd rfl (hkind hash)
  | processList =>
    simp only [ReplyKind.read, processFound_folded]
    exact .present _
  | privateKey | address | payment => exact htoken
  | balance => exact readBalance_folded reply
  | fileChange => exact readFileChange_folded reply
  | status =>
    simp only [ReplyKind.read, reply.isBlank_folded, reply.text_folded, mentionsError_folded,
      Text.mentions_folded]
    split
    · exact .unrecognized rfl
    · exact .running _
  | masternodeStatus =>
    simp only [ReplyKind.read, reply.isBlank_folded, reply.text_folded, mentionsError_folded,
      saysNotRunning_folded]
    split
    · exact .running _
    · split
      · exact .rejected htext
      · exact .running _
  | stop =>
    simp only [ReplyKind.read, reply.text_folded, mentionsError_folded, Text.mentions_folded]
    split
    · exact .accepted
    · split
      · exact .rejected htext
      · exact .unrecognized htext
  | start | generation =>
    simp only [ReplyKind.read, reply.text_folded, mentionsError_folded]
    split
    · exact .rejected htext
    · exact .accepted
  | startMasternode =>
    simp only [ReplyKind.read, reply.text_folded, Text.isBlankText_folded, Text.mentions_folded]
    split
    · exact .accepted
    · split
      · exact .unrecognized htext
      · exact .rejected htext

end Rules

/-! ## Replies that differ in case -/

/-- Two replies with one exit status, whose lines differ in case only. -/
structure Reply.SameLetters (reply other : Reply) : Prop where
  status : reply.status = other.status
  lines : List.Forall₂ Text.SameLetters reply.lines other.lines

variable {reply other : Reply}

theorem Reply.SameLetters.folded (h : reply.SameLetters other) (command : String) :
    { reply.folded with command } = { other.folded with command } := by
  have hlines : reply.lines.map Text.folded = other.lines.map Text.folded := by
    rw [← List.forall₂_eq_eq_eq, List.forall₂_map_left_iff, List.forall₂_map_right_iff]
    exact h.lines
  simp only [Reply.folded, Reply.mk.injEq, true_and]
  exact ⟨hlines, h.status⟩

/-- How a reply is read does not depend on the command that it is a reply to. -/
theorem ReplyKind.read_command (kind : ReplyKind) (reply : Reply) (command : String) :
    kind.read { reply with command } = kind.read reply := rfl

/-- Replies that differ in case are read alike: they are taken for the same, with the same number if
there is one, and the texts that are taken from them differ in case only.  A listing in which a hash
is looked for is the exception. -/
theorem ReplyKind.read_alike (kind : ReplyKind) (reply other : Reply)
    (hkind : ∀ hash, kind ≠ .outputs hash) (h : reply.SameLetters other) :
    (kind.read reply).Alike (kind.read other) ∧
      (kind.read reply).classification = (kind.read other).classification := by
  have hread : kind.read reply.folded = kind.read other.folded := by
    rw [← kind.read_command reply.folded "", h.folded, kind.read_command]
  have halike : (kind.read reply).Alike (kind.read other) := by
    refine (kind.read_folded reply hkind).symm.trans ?_
    rw [hread]
    exact kind.read_folded other hkind
  exact ⟨halike, halike.classification⟩

/-- A masternode that is none, in two spellings of its answer. -/
theorem ReplyKind.read_alike_refusal :
    let reply : Reply := ⟨"coin-cli masternode status", ["error code: -1", "Not active"], some 1⟩
    let other : Reply := ⟨"", ["ERROR Code: -1", "NOT ACTIVE"], some 1⟩
    (∀ hash, ReplyKind.masternodeStatus ≠ .outputs hash) ∧ reply.SameLetters other ∧
      ReplyKind.masternodeStatus.read reply = .rejected "error code: -1\nNot active" ∧
      (ReplyKind.masternodeStatus.read reply).Alike (ReplyKind.masternodeStatus.read other) ∧
      (ReplyKind.masternodeStatus.read other).classification = .recognizedFailure := by
  intro reply other
  have hkind : ∀ hash, ReplyKind.masternodeStatus ≠ .outputs hash := fun hash => nofun
  have hsame : reply.SameLetters other := ⟨rfl, .cons (by decide) (.cons (by decide) .nil)⟩
  obtain ⟨halike, hclass⟩ := ReplyKind.read_alike .masternodeStatus reply other hkind hsame
  have hread : ReplyKind.masternodeStatus.read reply = .rejected "error code: -1\nNot active" := by
    decide +kernel
  refine ⟨hkind, hsame, hread, halike, ?_⟩
  rw [← hclass, hread]
  rfl

/-- A hash is looked for as it is written. -/
example : (ReplyKind.outputs "9f2c").read ⟨"", ["9f2c"], none⟩ = .confirmed true ∧
    (ReplyKind.outputs "9f2c").read ⟨"", ["9F2C"], none⟩ = .confirmed false := by decide +kernel

end NodeFleet
