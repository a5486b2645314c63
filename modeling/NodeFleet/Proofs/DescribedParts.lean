import NodeFleet.Config.Document
import NodeFleet.Proofs.Records

/-!
# NodeFleet.Proofs.DescribedParts — the hosts and the waits of a description

A description holds hosts and waits, which are tables of their own.  Like the whole they are read
field by field, and what is said of the whole rests on what is said of them here.

* `HostEntry.toValue_inj`, `PollSettings.toValue_inj`, `Timing.toValue_inj`: no two of them are
  written alike.
* `HostEntry.IsReadFrom`, `PollSettings.IsReadFrom`, `Timing.IsReadFrom`: what is read, field by
  field.
* `HostEntry.AgreesWith`, `PollSettings.AgreesWith`, `Timing.AgreesWith`: the fields that a value
  gives have the values that it gives them.
* `HostEntry.Rewritten`, `PollSettings.Rewritten`, `Timing.Rewritten`: tables written differently.
* `PollSettings.read?_default`, `Timing.read?_default`: the fields that a table does not give.
-/

namespace NodeFleet

/-! ## What is written tells what is meant -/

namespace Value

/-- What stands under a name in a table. -/
def field? (name : String) : Value → Option Value
  | .table fields => fields.lookup name
  | _ => none

theorem orNull_injective {α : Type} {f : α → Value} (hf : Function.Injective f)
    (hnull : ∀ a, f a ≠ .null) : Function.Injective (orNull f) := by
  intro a b h
  cases a with
  | none =>
    cases b with
    | none => rfl
    | some b => exact absurd h.symm (hnull b)
  | some a =>
    cases b with
    | none => exact absurd h (hnull a)
    | some b => exact congrArg some (hf h)

theorem count_inj {m n : Nat} : count m = count n ↔ m = n := by
  rw [count, count, whole.injEq, Int.natCast_inj]

theorem orNull_text_inj {a b : Option String} : orNull text a = orNull text b ↔ a = b :=
  (orNull_injective (fun _ _ => text.inj) nofun).eq_iff

theorem orNull_count_inj {a b : Option Nat} : orNull count a = orNull count b ↔ a = b :=
  (orNull_injective (fun _ _ => count_inj.mp) nofun).eq_iff

theorem texts_inj {a b : List String} : texts a = texts b ↔ a = b := by
  rw [texts, texts, list.injEq, List.map_inj_right fun _ _ => text.inj]

end Value

theorem HostEntry.toValue_inj {a b : HostEntry} : a.toValue = b.toValue ↔ a = b := by
  refine ⟨fun h => ?_, congrArg _⟩
  cases a; cases b
  simp only [toValue, Value.table.injEq, List.cons.injEq, Prod.mk.injEq, true_and, and_true,
    Value.text.injEq, Value.orNull_text_inj, Value.orNull_count_inj] at h
  simp only [h]

theorem Network.toText_inj {a b : Network} : a.toText = b.toText ↔ a = b := by
  cases a <;> cases b <;> decide

theorem PollSettings.toValue_inj {a b : PollSettings} : a.toValue = b.toValue ↔ a = b := by
  refine ⟨fun h => ?_, congrArg _⟩
  cases a; cases b
  simp only [toValue, Value.table.injEq, List.cons.injEq, Prod.mk.injEq, true_and, and_true,
    Value.count_inj, Value.orNull_count_inj] at h
  simp only [h]

theorem Timing.toValue_inj {a b : Timing} : a.toValue = b.toValue ↔ a = b := by
  refine ⟨fun h => ?_, congrArg _⟩
  cases a; cases b
  simp only [toValue, Value.table.injEq, List.cons.injEq, Prod.mk.injEq, true_and, and_true,
    Value.count_inj, PollSettings.toValue_inj] at h
  simp only [h]

/-! ## Hosts -/

namespace Value

variable {α : Type} {read : Reader α} {v w : Value}

theorem asList_congr (h : read v = read w) (before after : List Value) :
    asList read (.list (before ++ v :: after)) = asList read (.list (before ++ w :: after)) := by
  simp only [asList, List.mapM_append, List.mapM_cons, h]

theorem exists_read_of_mem {items : List Value} {as : List α}
    (h : asList read (.list items) = some as) (hmem : v ∈ items) : ∃ a, read v = some a := by
  obtain ⟨items, heq, hitems⟩ := forall₂_of_asList h
  cases heq
  have hread : List.Forall₂ (fun i a => (∃ b, read i = some b) ∧ read i = some a) items as :=
    hitems.imp fun _ a ha => ⟨⟨a, ha⟩, ha⟩
  exact ((List.forall₂_and_left items as).mp hread).1 v hmem

end Value

namespace HostEntry

variable {v w : Value}

theorem fieldNames_distinct : Record.Distinct fieldNames := by decide

/-- A host written differently. -/
def Rewritten : Value → Value → Prop := Record.Rewritten fieldNames fun _ _ _ => False

/-- A list of hosts with one of them written differently. -/
inductive ListRewritten : Value → Value → Prop
  | item {v w : Value} (h : Rewritten v w) (before after : List Value) :
      ListRewritten (.list (before ++ v :: after)) (.list (before ++ w :: after))

theorem read?_rewritten (d : Dialect) (h : Rewritten v w) : read? d v = read? d w := by
  have hshort : isShortList v = isShortList w := by cases h <;> rfl
  unfold read?
  rw [hshort]
  split
  · rfl
  · refine Record.bind_fields?_eq fieldNames_distinct h fun fs gs halike => ?_
    simp only [Fields.optional, halike.required_eq nofun, halike.orElse_eq nofun]

theorem asList_rewritten (d : Dialect) (h : ListRewritten v w) :
    Value.asList (read? d) v = Value.asList (read? d) w := by
  obtain ⟨h, before, after⟩ := h
  exact Value.asList_congr (read?_rewritten d h) before after

theorem read?_eq_none (d : Dialect) {fields : List (String × Value)}
    (h : Record.HasTwoSpellings fieldNames fields) : read? d (.table fields) = none := by
  unfold read?
  rw [Record.fields?_eq_none d fieldNames_distinct h]
  rfl

/-- The host has what the fields give. -/
structure IsReadFrom (fs : Fields) (host : HostEntry) : Prop where
  name : fs.required "name" Value.asText = some host.name
  address : fs.required "address" Value.asText = some host.address
  username : fs.optional "username" Value.asText = some host.username?
  password : fs.optional "password" Value.asText = some host.password?
  keyFile : fs.optional "public_key_file" Value.asText = some host.keyFile?
  port : fs.optional "port" asPort = some host.port?

theorem exists_isReadFrom {d : Dialect} {host : HostEntry} (h : read? d v = some host) :
    ∃ fs, Record.fields? d fieldNames v = some fs ∧ host.IsReadFrom fs := by
  unfold read? at h
  split at h
  · cases h
  obtain ⟨fs, hfs, h⟩ := Option.bind_eq_some_iff.mp h
  obtain ⟨name, hname, h⟩ := Option.bind_eq_some_iff.mp h
  obtain ⟨address, haddress, h⟩ := Option.bind_eq_some_iff.mp h
  obtain ⟨username, husername, h⟩ := Option.bind_eq_some_iff.mp h
  obtain ⟨password, hpassword, h⟩ := Option.bind_eq_some_iff.mp h
  obtain ⟨keyFile, hkeyFile, h⟩ := Option.bind_eq_some_iff.mp h
  obtain ⟨port, hport, h⟩ := Option.bind_eq_some_iff.mp h
  cases h
  exact ⟨fs, hfs, by constructor <;> assumption⟩

/-- The host has what the value gives. -/
def AgreesWith (host : HostEntry) (v : Value) : Prop :=
  ∀ f ∈ fieldNames, ∀ w, f.IsGiven fieldNames w v → host.toValue.field? f.name = some w

theorem read?_agrees {d : Dialect} {host : HostEntry} (h : read? d v = some host) :
    host.AgreesWith v := by
  obtain ⟨fs, hfs, hread⟩ := exists_isReadFrom h
  intro f hf w hgiven
  have hlookup := hgiven.lookup_eq fieldNames_distinct hfs hf
  have htext := Value.asText_inverts
  simp only [fieldNames, List.mem_cons, List.not_mem_nil, or_false] at hf
  rcases hf with rfl | rfl | rfl | rfl | rfl | rfl
  · exact Fields.written_required htext hlookup hread.name
  · exact Fields.written_required htext hlookup hread.address
  · exact Fields.written_orElse htext.nullable hlookup hread.username
  · exact Fields.written_orElse htext.nullable hlookup hread.password
  · exact Fields.written_orElse htext.nullable hlookup hread.keyFile
  · exact Fields.written_orElse (Value.asBelow_inverts _).nullable hlookup hread.port

/-- The hosts have what the items of a list give, one after the other. -/
def AllAgreeWith (hosts : List HostEntry) (v : Value) : Prop :=
  ∃ items, v = .list items ∧ List.Forall₂ AgreesWith hosts items

theorem asList_agrees {d : Dialect} {hosts : List HostEntry}
    (h : Value.asList (read? d) v = some hosts) : AllAgreeWith hosts v := by
  obtain ⟨items, rfl, hitems⟩ := Value.forall₂_of_asList h
  exact ⟨items, rfl, (hitems.imp fun _ _ => read?_agrees).flip⟩

end HostEntry

/-! ## Waits -/

section Waits

variable {d : Dialect} {v w : Value} {fields inner : List (String × Value)} {f : FieldName}

namespace PollSettings

theorem fieldNames_distinct : Record.Distinct fieldNames := by decide

/-- A pace written differently. -/
def Rewritten : Value → Value → Prop := Record.Rewritten fieldNames fun _ _ _ => False

theorem read?_rewritten (d : Dialect) (h : Rewritten v w) : read? d v = read? d w := by
  refine Record.bind_fields?_eq fieldNames_distinct h fun fs gs halike => ?_
  simp only [halike.orElse_eq nofun]

/-- The pace is what the fields give, and the standard one where they give nothing. -/
structure IsReadFrom (fs : Fields) (poll : PollSettings) : Prop where
  interval : fs.orElse "interval_secs" asSeconds standard.intervalSeconds =
    some poll.intervalSeconds
  attempts : fs.orElse "max_attempts" (Fields.nullable asAttempts) standard.maxAttempts? =
    some poll.maxAttempts?
  deadline : fs.orElse "deadline_secs" (Fields.nullable asSeconds) standard.deadlineSeconds? =
    some poll.deadlineSeconds?

theorem exists_isReadFrom {poll : PollSettings} (h : read? d v = some poll) :
    ∃ fs, Record.fields? d fieldNames v = some fs ∧ poll.IsReadFrom fs := by
  obtain ⟨fs, hfs, h⟩ := Option.bind_eq_some_iff.mp h
  obtain ⟨interval, hinterval, h⟩ := Option.bind_eq_some_iff.mp h
  obtain ⟨attempts, hattempts, h⟩ := Option.bind_eq_some_iff.mp h
  obtain ⟨deadline, hdeadline, h⟩ := Option.bind_eq_some_iff.mp h
  cases h
  exact ⟨fs, hfs, by constructor <;> assumption⟩

theorem read?_default {poll : PollSettings} (h : read? d (.table fields) = some poll)
    (hf : f ∈ fieldNames) (hmissing : f.IsMissing fields) :
    poll.toValue.field? f.name = standard.toValue.field? f.name := by
  obtain ⟨fs, hfs, hread⟩ := exists_isReadFrom h
  have hnone := Record.lookup_eq_none fieldNames_distinct hfs hf hmissing
  simp only [fieldNames, List.mem_cons, List.not_mem_nil, or_false] at hf
  rcases hf with rfl | rfl | rfl
  all_goals simp only [FieldName.plain, Value.field?, toValue, List.lookup_cons, String.reduceBEq]
  · rw [Fields.eq_default hnone hread.interval]
  · rw [Fields.eq_default hnone hread.attempts]
  · rw [Fields.eq_default hnone hread.deadline]

/-- The pace has what the value gives. -/
def AgreesWith (poll : PollSettings) (v : Value) : Prop :=
  ∀ f ∈ fieldNames, ∀ w, f.IsGiven fieldNames w v → poll.toValue.field? f.name = some w

theorem read?_agrees {poll : PollSettings} (h : read? d v = some poll) : poll.AgreesWith v := by
  obtain ⟨fs, hfs, hread⟩ := exists_isReadFrom h
  intro f hf w hgiven
  have hlookup := hgiven.lookup_eq fieldNames_distinct hfs hf
  simp only [fieldNames, List.mem_cons, List.not_mem_nil, or_false] at hf
  rcases hf with rfl | rfl | rfl
  · exact Fields.written_orElse (Value.asBelow_inverts _) hlookup hread.interval
  · exact Fields.written_orElse (Value.asBelow_inverts _).nullable hlookup hread.attempts
  · exact Fields.written_orElse (Value.asBelow_inverts _).nullable hlookup hread.deadline

end PollSettings

namespace Timing

theorem fieldNames_distinct : Record.Distinct fieldNames := by decide

/-- Waits written differently, also those whose pace is. -/
def Rewritten : Value → Value → Prop :=
  Record.Rewritten fieldNames fun name v w => name = "poll" ∧ PollSettings.Rewritten v w

theorem read?_rewritten (d : Dialect) (h : Rewritten v w) : read? d v = read? d w := by
  refine Record.bind_fields?_eq fieldNames_distinct h fun fs gs halike => ?_
  have hpoll : fs.orElse "poll" (PollSettings.read? d) standard.poll =
      gs.orElse "poll" (PollSettings.read? d) standard.poll :=
    halike.orElse_eq (fun _ _ h => PollSettings.read?_rewritten d h.2) _
  have hother : ∀ name, name ≠ "poll" → ∀ (read : Reader Nat) (default : Nat),
      fs.orElse name read default = gs.orElse name read default :=
    fun _ hname _ default => halike.orElse_eq (fun _ _ h => absurd h.1 hname) default
  simp (disch := decide) only [hpoll, hother]

/-- The waits are what the fields give, and the standard ones where they give nothing. -/
structure IsReadFrom (d : Dialect) (fs : Fields) (t : Timing) : Prop where
  daemonSettle : fs.orElse "daemon_settle_secs" asSeconds standard.daemonSettle =
    some t.daemonSettle
  stopSettle : fs.orElse "stop_settle_secs" asSeconds standard.stopSettle = some t.stopSettle
  bootstrapSettle : fs.orElse "bootstrap_settle_secs" asSeconds standard.bootstrapSettle =
    some t.bootstrapSettle
  rebootSettle : fs.orElse "reboot_settle_secs" asSeconds standard.rebootSettle =
    some t.rebootSettle
  sweepPause : fs.orElse "sweep_pause_secs" asSeconds standard.sweepPause = some t.sweepPause
  commandTimeout : fs.orElse "command_timeout_secs" asSeconds standard.commandTimeout =
    some t.commandTimeout
  poll : fs.orElse "poll" (PollSettings.read? d) standard.poll = some t.poll

theorem exists_isReadFrom {t : Timing} (h : read? d v = some t) :
    ∃ fs, Record.fields? d fieldNames v = some fs ∧ t.IsReadFrom d fs := by
  obtain ⟨fs, hfs, h⟩ := Option.bind_eq_some_iff.mp h
  obtain ⟨daemon, hdaemon, h⟩ := Option.bind_eq_some_iff.mp h
  obtain ⟨stop, hstop, h⟩ := Option.bind_eq_some_iff.mp h
  obtain ⟨bootstrap, hbootstrap, h⟩ := Option.bind_eq_some_iff.mp h
  obtain ⟨reboot, hreboot, h⟩ := Option.bind_eq_some_iff.mp h
  obtain ⟨pause, hpause, h⟩ := Option.bind_eq_some_iff.mp h
  obtain ⟨command, hcommand, h⟩ := Option.bind_eq_some_iff.mp h
  obtain ⟨poll, hpoll, h⟩ := Option.bind_eq_some_iff.mp h
  cases h
  exact ⟨fs, hfs, by constructor <;> assumption⟩

theorem read?_default {t : Timing} (h : read? d (.table fields) = some t) (hf : f ∈ fieldNames)
    (hmissing : f.IsMissing fields) :
    t.toValue.field? f.name = standard.toValue.field? f.name := by
  obtain ⟨fs, hfs, hread⟩ := exists_isReadFrom h
  have hnone := Record.lookup_eq_none fieldNames_distinct hfs hf hmissing
  simp only [fieldNames, List.mem_cons, List.not_mem_nil, or_false] at hf
  rcases hf with rfl | rfl | rfl | rfl | rfl | rfl | rfl
  all_goals simp only [FieldName.plain, Value.field?, toValue, List.lookup_cons, String.reduceBEq]
  · rw [Fields.eq_default hnone hread.daemonSettle]
  · rw [Fields.eq_default hnone hread.stopSettle]
  · rw [Fields.eq_default hnone hread.bootstrapSettle]
  · rw [Fields.eq_default hnone hread.rebootSettle]
  · rw [Fields.eq_default hnone hread.sweepPause]
  · rw [Fields.eq_default hnone hread.commandTimeout]
  · rw [Fields.eq_default hnone hread.poll]

/-- The waits have what the value gives, and the pace what is given as the pace. -/
structure AgreesWith (t : Timing) (v : Value) : Prop where
  own : ∀ f ∈ fieldNames, f.name ≠ "poll" → ∀ w, f.IsGiven fieldNames w v →
    t.toValue.field? f.name = some w
  pace : ∀ w, (FieldName.plain "poll").IsGiven fieldNames w v → t.poll.AgreesWith w

theorem read?_agrees {t : Timing} (h : read? d v = some t) : t.AgreesWith v := by
  obtain ⟨fs, hfs, hread⟩ := exists_isReadFrom h
  constructor
  case own =>
    intro f hf hname w hgiven
    have hlookup := hgiven.lookup_eq fieldNames_distinct hfs hf
    have hseconds : asSeconds.Inverts .count := Value.asBelow_inverts _
    simp only [fieldNames, List.mem_cons, List.not_mem_nil, or_false] at hf
    rcases hf with rfl | rfl | rfl | rfl | rfl | rfl | rfl
    · exact Fields.written_orElse hseconds hlookup hread.daemonSettle
    · exact Fields.written_orElse hseconds hlookup hread.stopSettle
    · exact Fields.written_orElse hseconds hlookup hread.bootstrapSettle
    · exact Fields.written_orElse hseconds hlookup hread.rebootSettle
    · exact Fields.written_orElse hseconds hlookup hread.sweepPause
    · exact Fields.written_orElse hseconds hlookup hread.commandTimeout
    · exact absurd rfl hname
  case pace =>
    intro w hgiven
    have hlookup := hgiven.lookup_eq fieldNames_distinct hfs (by simp [fieldNames])
    exact PollSettings.read?_agrees (Fields.read_eq_of_orElse hlookup hread.poll)

theorem read?_poll {t : Timing} (h : read? d (.table fields) = some t)
    (hholds : (FieldName.plain "poll").Holds fields inner) :
    PollSettings.read? d (.table inner) = some t.poll := by
  obtain ⟨fs, hfs, hread⟩ := exists_isReadFrom h
  exact hholds.read_eq fieldNames_distinct hfs (by simp [fieldNames]) rfl hread.poll

end Timing

end Waits

end NodeFleet
