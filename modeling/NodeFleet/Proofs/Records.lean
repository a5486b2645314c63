import Mathlib.Data.List.Nodup
import Mathlib.Data.List.Pairwise
import Mathlib.Data.List.Perm.Basic
import Mathlib.Logic.Relation
import NodeFleet.Document.Record

/-!
# NodeFleet.Proofs.Records — what a record takes from the way in which its table is written

A table gives a record its fields through `Record.given`: each under its own name, whatever name it
goes by in the table, and nothing for a name that no field has.  A reader looks fields up by name,
so it sees neither their order nor how they were spelled.

* `Record.fieldsOfTable?_eq`: a table gives a record unless it gives a field twice.
* `Record.Rewritten`: a table and another way of writing it down.
* `Record.fields?_rewritten`: the fields that two ways of writing one table give are alike.
* `Fields.Alike.required_eq`, `Fields.Alike.orElse_eq`: readers read the same from fields that are
  alike.
* `FieldName.IsMissing`, `Record.HasTwoSpellings`, `FieldName.Holds`: a field that a table does not
  give, gives under two names, or gives as a table.
* `FieldName.IsGiven`: a field that a value gives, and what it gives it.
* `Reader.Inverts`: a reader that reads nothing but what is written.
-/

namespace NodeFleet

/-- The names that a field goes by. -/
def FieldName.spellings (f : FieldName) : List String := f.name :: f.olderNames

/-- The table does not give the field. -/
def FieldName.IsMissing (f : FieldName) (fields : List (String × Value)) : Prop :=
  ∀ p ∈ fields, p.1 ∉ f.spellings

namespace Record

variable {names : List FieldName} {fields : List (String × Value)} {f : FieldName} {key : String}

/-! ## Names -/

/-- No name belongs to two fields. -/
def Distinct (names : List FieldName) : Prop := (names.flatMap FieldName.spellings).Nodup

instance : Decidable (Distinct names) := inferInstanceAs (Decidable (List.Nodup _))

theorem goesBy_iff (f : FieldName) (key : String) :
    (f.name == key || f.olderNames.contains key) = true ↔ key ∈ f.spellings := by
  rw [Bool.or_eq_true, beq_iff_eq, List.contains_iff_mem, FieldName.spellings, List.mem_cons,
    @eq_comm _ key]

theorem Distinct.eq_of_spelling {g : FieldName} (hd : Distinct names) (hf : f ∈ names)
    (hg : g ∈ names) (hkey : key ∈ f.spellings) (hkey' : key ∈ g.spellings) : f = g := by
  by_contra hne
  have : Std.Symm (Function.onFun List.Disjoint FieldName.spellings) :=
    ⟨fun _ _ h _ hkey hkey' => h hkey' hkey⟩
  have hdisjoint : List.Disjoint f.spellings g.spellings :=
    (List.nodup_flatMap.mp hd).2.forall hf hg hne
  exact hdisjoint hkey hkey'

theorem Distinct.nodup_names (hd : Distinct names) : (names.map FieldName.name).Nodup := by
  rw [List.Nodup, List.pairwise_map]
  refine (List.nodup_flatMap.mp hd).2.imp fun hdisjoint hname => ?_
  exact hdisjoint List.mem_cons_self (hname ▸ List.mem_cons_self)

theorem canonical?_eq_some_iff (hd : Distinct names) (hf : f ∈ names) :
    canonical? names key = some f.name ↔ key ∈ f.spellings := by
  constructor
  · intro h
    obtain ⟨g, hg, hname⟩ := Option.map_eq_some_iff.mp h
    have hgoes := List.find?_some hg
    -- the field that was found has the name of `f`, so it is `f`
    have hfg : f = g := hd.eq_of_spelling hf (List.mem_of_find?_eq_some hg)
      List.mem_cons_self (hname ▸ List.mem_cons_self)
    exact hfg ▸ (goesBy_iff g key).mp hgoes
  · intro hkey
    have hsome : (names.find? fun g => g.name == key || g.olderNames.contains key).isSome :=
      List.find?_isSome.mpr ⟨f, hf, (goesBy_iff f key).mpr hkey⟩
    obtain ⟨g, hg⟩ := Option.isSome_iff_exists.mp hsome
    have hgoes := List.find?_some hg
    rw [canonical?, hg, Option.map_some,
      hd.eq_of_spelling hf (List.mem_of_find?_eq_some hg) hkey ((goesBy_iff g key).mp hgoes)]

/-! ## What a table gives -/

/-- The fields that a table gives, each as often as it is written. -/
def given (names : List FieldName) (fields : List (String × Value)) : Fields :=
  fields.filterMap fun p => (canonical? names p.1).map fun name => (name, p.2)

theorem given_names :
    (given names fields).map Prod.fst = (fields.map Prod.fst).filterMap (canonical? names) := by
  simp only [given, List.map_filterMap, List.filterMap_map, Option.map_map, Function.comp_def,
    Option.map_id']

/-- A table gives its fields, unless it gives one twice. -/
theorem fieldsOfTable?_eq :
    fieldsOfTable? names fields =
      if ((given names fields).map Prod.fst).Nodup then some (given names fields) else none := by
  induction fields with
  | nil => rfl
  | cons p fields ih =>
    obtain ⟨key, v⟩ := p
    rw [fieldsOfTable?, ih]
    cases hkey : canonical? names key with
    | none => split <;> simp_all [given]
    | some name =>
      have hgiven : given names ((key, v) :: fields) = (name, v) :: given names fields := by
        simp [given, hkey]
      have hlookup : ((given names fields).lookup name).isSome = true ↔
          name ∈ (given names fields).map Prod.fst := by
        rw [Option.isSome_iff_ne_none, ne_eq, List.lookup_eq_none_iff]
        simp
      simp only [hgiven, List.map_cons, List.nodup_cons, ← hlookup, ite_and]
      split <;> simp_all

theorem mem_given_iff (hd : Distinct names) (hf : f ∈ names) {v : Value} :
    (f.name, v) ∈ given names fields ↔ ∃ key ∈ f.spellings, (key, v) ∈ fields := by
  rw [given, List.mem_filterMap]
  constructor
  · rintro ⟨⟨key, w⟩, hmem, h⟩
    obtain ⟨name, hname, heq⟩ := Option.map_eq_some_iff.mp h
    obtain ⟨rfl, rfl⟩ := Prod.mk.inj heq
    exact ⟨key, (canonical?_eq_some_iff hd hf).mp hname, hmem⟩
  · rintro ⟨key, hkey, hmem⟩
    exact ⟨(key, v), hmem, by rw [(canonical?_eq_some_iff hd hf).mpr hkey, Option.map_some]⟩

end Record

namespace Fields

variable {fs gs : Fields} {name : String}

theorem lookup_eq_some_iff_mem (hnodup : (fs.map Prod.fst).Nodup) {v : Value} :
    fs.lookup name = some v ↔ (name, v) ∈ fs := by
  induction fs with
  | nil => simp
  | cons p fs ih =>
    obtain ⟨key, w⟩ := p
    obtain ⟨hnew, hrest⟩ := List.nodup_cons.mp hnodup
    rw [List.lookup_cons, List.mem_cons, Prod.mk.injEq]
    by_cases hname : name = key
    · subst hname
      have hnot : (name, v) ∉ fs := fun h => hnew (List.mem_map.mpr ⟨_, h, rfl⟩)
      simp only [beq_self_eq_true, Option.some.injEq, true_and, hnot, or_false, eq_comm]
    · simp only [beq_eq_false_iff_ne.mpr hname, ih hrest, hname, false_and, false_or]

theorem lookup_eq_of_perm (hnodup : (fs.map Prod.fst).Nodup) (h : fs.Perm gs) (name : String) :
    fs.lookup name = gs.lookup name := by
  have hnodup' : (gs.map Prod.fst).Nodup := (h.map Prod.fst).nodup_iff.mp hnodup
  ext v
  rw [lookup_eq_some_iff_mem hnodup, lookup_eq_some_iff_mem hnodup', h.mem_iff]

theorem eq_default {α : Type} {read : Reader α} {default a : α} (hnone : fs.lookup name = none)
    (ha : fs.orElse name read default = some a) : a = default := by
  rw [orElse, hnone] at ha
  exact (Option.some.inj ha).symm

/-- Fields that are alike: where a value stands on one side, the same value stands on the other, or
one that `inner` relates to it. -/
def Alike (inner : String → Value → Value → Prop) (fs gs : Fields) : Prop :=
  ∀ name, Option.Rel (Relation.ReflGen (inner name)) (fs.lookup name) (gs.lookup name)

variable {inner : String → Value → Value → Prop}

theorem Alike.of_lookup_eq (h : ∀ name, fs.lookup name = gs.lookup name) : Alike inner fs gs := by
  intro name
  rw [h name]
  cases gs.lookup name with
  | none => exact .none
  | some v => exact .some .refl

theorem Alike.of_inner {v w : Value} (h : inner name v w) (before after : Fields) :
    Alike inner (before ++ (name, v) :: after) (before ++ (name, w) :: after) := by
  intro other
  induction before with
  | nil =>
    rw [List.nil_append, List.nil_append, List.lookup_cons, List.lookup_cons]
    by_cases hother : other = name
    · subst hother
      simpa only [beq_self_eq_true] using .some (.single h)
    · simpa only [beq_eq_false_iff_ne.mpr hother] using Alike.of_lookup_eq (fun _ => rfl) other
  | cons p before ih =>
    rw [List.cons_append, List.cons_append, List.lookup_cons, List.lookup_cons]
    by_cases hp : other = p.1
    · simpa only [hp, beq_self_eq_true] using .some .refl
    · simpa only [beq_eq_false_iff_ne.mpr hp] using ih

section Reading

variable {α : Type} {read : Reader α}

theorem Alike.map_lookup_eq (h : Alike inner fs gs)
    (hread : ∀ v w, inner name v w → read v = read w) :
    (fs.lookup name).map read = (gs.lookup name).map read := by
  have hname := h name
  generalize fs.lookup name = a, gs.lookup name = b at hname
  cases hname with
  | none => rfl
  | some hvw =>
    cases hvw with
    | refl => rfl
    | single hvw => exact congrArg some (hread _ _ hvw)

theorem Alike.required_eq (h : Alike inner fs gs)
    (hread : ∀ v w, inner name v w → read v = read w) :
    fs.required name read = gs.required name read := by
  have hmap := h.map_lookup_eq hread
  unfold required
  cases hf : fs.lookup name <;> cases hg : gs.lookup name <;> simp_all

theorem Alike.orElse_eq (h : Alike inner fs gs)
    (hread : ∀ v w, inner name v w → read v = read w) (default : α) :
    fs.orElse name read default = gs.orElse name read default := by
  have hmap := h.map_lookup_eq hread
  unfold orElse
  cases hf : fs.lookup name <;> cases hg : gs.lookup name <;> simp_all

end Reading

end Fields

namespace Record

variable {names : List FieldName} {inner : String → Value → Value → Prop} {v w : Value}

/-! ## Other ways of writing a table -/

/-- A table, and the same table written differently: with its fields in another order, with a field
under another of its names, or with a field whose value `inner` relates to the value it had. -/
inductive Rewritten (names : List FieldName) (inner : String → Value → Value → Prop) :
    Value → Value → Prop
  | reordered {fields others : List (String × Value)} (h : fields.Perm others) :
      Rewritten names inner (.table fields) (.table others)
  | respelled {f : FieldName} (hf : f ∈ names) {key other : String} (hkey : key ∈ f.spellings)
      (hother : other ∈ f.spellings) (before : List (String × Value)) (v : Value)
      (after : List (String × Value)) :
      Rewritten names inner (.table (before ++ (key, v) :: after))
        (.table (before ++ (other, v) :: after))
  | within {f : FieldName} (hf : f ∈ names) {key : String} (hkey : key ∈ f.spellings)
      {v w : Value} (h : inner f.name v w) (before after : List (String × Value)) :
      Rewritten names inner (.table (before ++ (key, v) :: after))
        (.table (before ++ (key, w) :: after))

theorem fields?_rewritten (d : Dialect) (hd : Distinct names) (h : Rewritten names inner v w) :
    Option.Rel (Fields.Alike inner) (fields? d names v) (fields? d names w) := by
  -- one step of rewriting: another order, another spelling, or another value within a field
  cases h with
  | @reordered fields others h =>
    have hgiven : (given names fields).Perm (given names others) := h.filterMap _
    have hnodup := (hgiven.map Prod.fst).nodup_iff
    simp only [fields?, fieldsOfTable?_eq, ← hnodup]
    split
    · exact .some (.of_lookup_eq (Fields.lookup_eq_of_perm ‹_› hgiven))
    · exact .none
  | @respelled f hf key other hkey hother before v after =>
    have hsame : given names (before ++ (key, v) :: after) =
        given names (before ++ (other, v) :: after) := by
      simp only [given, List.filterMap_append, List.filterMap_cons,
        (canonical?_eq_some_iff hd hf).mpr hkey, (canonical?_eq_some_iff hd hf).mpr hother]
    simp only [fields?, fieldsOfTable?_eq, hsame]
    split
    · exact .some (.of_lookup_eq fun _ => rfl)
    · exact .none
  | @within f hf key hkey v w h before after =>
    have hname := (canonical?_eq_some_iff hd hf).mpr hkey
    have hnames : (given names (before ++ (key, v) :: after)).map Prod.fst =
        (given names (before ++ (key, w) :: after)).map Prod.fst := by
      simp only [given_names, List.map_append, List.map_cons]
    simp only [fields?, fieldsOfTable?_eq, hnames]
    split
    · simp only [given, List.filterMap_append, List.filterMap_cons, hname, Option.map_some]
      exact .some (.of_inner h _ _)
    · exact .none

/-- What is made of a table through its fields is the same, however it is written. -/
theorem bind_fields?_eq {d : Dialect} {k : Fields → Option α} (hd : Distinct names)
    (h : Rewritten names inner v w) (hk : ∀ fs gs, Fields.Alike inner fs gs → k fs = k gs) :
    (fields? d names v).bind k = (fields? d names w).bind k := by
  have hfields := fields?_rewritten d hd h
  generalize fields? d names v = a, fields? d names w = b at hfields
  cases hfields with
  | none => rfl
  | some halike => exact hk _ _ halike

/-! ## Fields that a table lacks, or gives in some special way -/

/-- One field is given under two of its names. -/
def HasTwoSpellings (names : List FieldName) (fields : List (String × Value)) : Prop :=
  ∃ f ∈ names, ∃ key ∈ f.spellings, ∃ other ∈ f.spellings,
    key ≠ other ∧ key ∈ fields.map Prod.fst ∧ other ∈ fields.map Prod.fst

theorem fields?_eq_none (d : Dialect) (hd : Distinct names) {fields : List (String × Value)}
    (h : HasTwoSpellings names fields) : fields? d names (.table fields) = none := by
  obtain ⟨f, hf, key, hkey, other, hother, hne, hmem, hmem'⟩ := h
  rw [fields?, fieldsOfTable?_eq, if_neg]
  intro hnodup
  -- the two keys stand for one name, which the fields would give once only
  rw [given_names, List.Nodup, List.pairwise_filterMap] at hnodup
  have : Std.Symm fun a b : String => ∀ x, canonical? names a = some x →
      ∀ y, canonical? names b = some y → x ≠ y := ⟨fun _ _ h x hx y hy => (h y hy x hx).symm⟩
  exact hnodup.forall hmem hmem' hne f.name ((canonical?_eq_some_iff hd hf).mpr hkey) f.name
    ((canonical?_eq_some_iff hd hf).mpr hother) rfl

section Given

variable {d : Dialect} {fields : List (String × Value)} {fs : Fields} {f : FieldName}

theorem eq_given (h : fields? d names (.table fields) = some fs) :
    fs = given names fields ∧ (fs.map Prod.fst).Nodup := by
  rw [fields?, fieldsOfTable?_eq] at h
  split at h
  · cases h
    exact ⟨rfl, ‹_›⟩
  · cases h

theorem lookup_eq_some (hd : Distinct names) (h : fields? d names (.table fields) = some fs)
    (hf : f ∈ names) {key : String} (hkey : key ∈ f.spellings) (hmem : (key, v) ∈ fields) :
    fs.lookup f.name = some v := by
  obtain ⟨rfl, hnodup⟩ := eq_given h
  exact (Fields.lookup_eq_some_iff_mem hnodup).mpr ((mem_given_iff hd hf).mpr ⟨key, hkey, hmem⟩)

theorem lookup_eq_none (hd : Distinct names) (h : fields? d names (.table fields) = some fs)
    (hf : f ∈ names) (hmissing : f.IsMissing fields) : fs.lookup f.name = none := by
  obtain ⟨rfl, hnodup⟩ := eq_given h
  rw [Option.eq_none_iff_forall_ne_some]
  intro v hv
  obtain ⟨key, hkey, hmem⟩ :=
    (mem_given_iff hd hf).mp ((Fields.lookup_eq_some_iff_mem hnodup).mp hv)
  exact hmissing _ hmem hkey

end Given

end Record

/-- The table gives the field as a table; one that does not give it counts as giving the empty
one. -/
inductive FieldName.Holds (f : FieldName) (fields : List (String × Value)) :
    List (String × Value) → Prop
  | given {key : String} {inner : List (String × Value)} (hkey : key ∈ f.spellings)
      (h : (key, .table inner) ∈ fields) : f.Holds fields inner
  | missing (h : f.IsMissing fields) : f.Holds fields []

/-- The value gives the field the value `w`: a table under one of the field's names, a list at the
field's place. -/
inductive FieldName.IsGiven (names : List FieldName) (f : FieldName) (w : Value) : Value → Prop
  | named {fields : List (String × Value)} {key : String} (hkey : key ∈ f.spellings)
      (h : (key, w) ∈ fields) : f.IsGiven names w (.table fields)
  | placed {items : List Value} (h : (f.name, w) ∈ (names.map FieldName.name).zip items) :
      f.IsGiven names w (.list items)

theorem FieldName.IsGiven.lookup_eq {names : List FieldName} {d : Dialect} {f : FieldName}
    {v w : Value} {fs : Fields} (hgiven : f.IsGiven names w v) (hd : Record.Distinct names)
    (h : Record.fields? d names v = some fs) (hf : f ∈ names) : fs.lookup f.name = some w := by
  cases hgiven with
  | named hkey hmem => exact Record.lookup_eq_some hd h hf hkey hmem
  | @placed items hmem =>
    rw [Record.fields?] at h
    split at h
    · cases h
    · cases h
      have hnodup : (((names.map FieldName.name).zip items).map Prod.fst).Nodup := by
        rw [List.zip_eq_zip_take_min, List.map_fst_zip (by simp)]
        exact hd.nodup_names.sublist (List.take_sublist _ _)
      exact (Fields.lookup_eq_some_iff_mem hnodup).mpr hmem

/-! ## Readers of what was written -/

/-- The reader reads a value only as what would be written so. -/
def Reader.Inverts (read : Reader α) (write : α → Value) : Prop :=
  ∀ v a, read v = some a → v = write a

section Inverts

variable {read : Reader α} {write : α → Value}

theorem Value.asText_inverts : Reader.Inverts Value.asText .text := by
  intro v s h
  cases v with
  | text => exact congrArg Value.text (Option.some.inj h)
  | _ => cases h

theorem Value.asBelow_inverts (bound : Nat) : Reader.Inverts (Value.asBelow bound) .count := by
  intro v n h
  cases v with
  | whole i =>
    rw [Value.asBelow] at h
    split at h
    · rename_i hrange
      cases h
      rw [Value.count, Int.toNat_of_nonneg hrange.1]
    · cases h
  | _ => cases h

theorem Reader.Inverts.nullable (hread : read.Inverts write) :
    Reader.Inverts (Fields.nullable read) (.orNull write) := by
  intro v o h
  unfold Fields.nullable at h
  split at h
  · cases h
    rfl
  · obtain ⟨a, ha, rfl⟩ := Option.map_eq_some_iff.mp h
    exact hread _ a ha

theorem Value.forall₂_of_asList {v : Value} {as : List α} (h : Value.asList read v = some as) :
    ∃ items, v = .list items ∧ List.Forall₂ (fun item a => read item = some a) items as := by
  cases v with
  | list items =>
    refine ⟨items, rfl, ?_⟩
    change items.mapM read = some as at h
    induction items generalizing as with
    | nil =>
      cases h
      exact .nil
    | cons item items ih =>
      rw [List.mapM_cons] at h
      obtain ⟨a, ha, h⟩ := Option.bind_eq_some_iff.mp h
      obtain ⟨rest, hrest, h⟩ := Option.bind_eq_some_iff.mp h
      cases h
      exact .cons ha (ih hrest)
  | _ => cases h

theorem Reader.Inverts.asList (hread : read.Inverts write) :
    Reader.Inverts (Value.asList read) fun as => .list (as.map write) := by
  intro v as h
  obtain ⟨items, rfl, hitems⟩ := Value.forall₂_of_asList h
  have hwritten : List.Forall₂ (· = ·) items (as.map write) :=
    List.forall₂_map_right_iff.mpr (hitems.imp fun _ _ ha => hread _ _ ha)
  rw [List.forall₂_eq_eq_eq] at hwritten
  exact congrArg Value.list hwritten

namespace Fields

variable {fs : Fields} {name : String} {default a : α} {w : Value}

theorem read_eq_of_orElse (hlookup : fs.lookup name = some w)
    (h : fs.orElse name read default = some a) : read w = some a := by
  rwa [orElse, hlookup] at h

theorem read_eq_of_required (hlookup : fs.lookup name = some w)
    (h : fs.required name read = some a) : read w = some a := by
  rwa [required, hlookup] at h

/-- A field that is given is read as what it would be written as. -/
theorem written_orElse (hread : read.Inverts write) (hlookup : fs.lookup name = some w)
    (h : fs.orElse name read default = some a) : some (write a) = some w :=
  congrArg some (hread w a (read_eq_of_orElse hlookup h)).symm

theorem written_required (hread : read.Inverts write) (hlookup : fs.lookup name = some w)
    (h : fs.required name read = some a) : some (write a) = some w :=
  congrArg some (hread w a (read_eq_of_required hlookup h)).symm

end Fields

end Inverts

theorem FieldName.Holds.read_eq {names : List FieldName} {d : Dialect} {f : FieldName}
    {fields inner : List (String × Value)} {fs : Fields} {read : Reader α} {default a : α}
    (hholds : f.Holds fields inner) (hd : Record.Distinct names)
    (h : Record.fields? d names (.table fields) = some fs) (hf : f ∈ names)
    (hempty : read (.table []) = some default) (ha : fs.orElse f.name read default = some a) :
    read (.table inner) = some a := by
  unfold Fields.orElse at ha
  cases hholds with
  | given hkey hmem => rwa [Record.lookup_eq_some hd h hf hkey hmem] at ha
  | missing hmissing =>
    rw [Record.lookup_eq_none hd h hf hmissing] at ha
    exact hempty.trans ha

end NodeFleet
