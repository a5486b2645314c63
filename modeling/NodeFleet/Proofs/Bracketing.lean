import NodeFleet.Proofs.Orders

/-!
# NodeFleet.Proofs.Bracketing — sessions never overlap, and none is left open

Logs are read in two ways.  `Bracketed` builds a log from whole sessions, so that each part of a
procedure gives a bracketed log whatever it is answered.  `Log.sessions` only counts: it opens and
closes sessions event by event, and knows nothing of procedures.  `Bracketed.wellBracketed` takes
the first to the second.

* `Log.WellBracketed`: at most one session is open at any time, each is closed, and every command,
  file and closing belongs to the session that is open.
* `bracketed_holdsOfSessions`: what procedures leave is built from whole sessions.
-/

namespace NodeFleet

/-! ## Requests and sessions -/

/-- A request that takes an open session to the host: a command, a file, or the closing. -/
def Request.Takes (host : Host) : Request → Prop
  | .run h _ | .write h _ _ | .close h => h = host
  | _ => False

/-- What may be asked while the session to a host is open. -/
def Request.Within (host : Host) : Request → Prop :=
  Request.IsOn host (fun _ => True) fun _ _ => True

theorem Request.IsOn.within {host : Host} {runs : Command → Prop}
    {writes : String → ByteArray → Prop} {r : Request} (h : r.IsOn host runs writes) :
    r.Within host := by
  cases r with
  | run _ _ => exact ⟨h.1, trivial⟩
  | write _ _ _ => exact ⟨h.1, trivial⟩
  | cancelled => trivial
  | sleep _ => trivial
  | _ => exact h

/-- The open sessions after one more event, the newest first. -/
def Event.sessions (open_ : List Host) : Event → List Host
  | ⟨.connect host, .ok _⟩ => host :: open_
  | ⟨.close host, _⟩ => open_.erase host
  | _ => open_

/-- The sessions that are open after a log, when some were open before. -/
def Log.sessionsFrom (open_ : List Host) (l : Log) : List Host := l.foldl Event.sessions open_

/-- The sessions that are open after a log. -/
def Log.sessions (l : Log) : List Host := l.sessionsFrom []

/-- At most one session is open at any time, each is closed, and every command, file and closing
belongs to the session that is open. -/
structure Log.WellBracketed (l : Log) : Prop where
  one_open : ∀ l₁ l₂ : Log, l = l₁ ++ l₂ → l₁.sessions.length ≤ 1
  taken : ∀ (l₁ : Log) (e : Event) (l₂ : Log) (host : Host),
    l = l₁ ++ e :: l₂ → e.request.Takes host → l₁.sessions = [host]
  closes : ∀ (l₁ l₂ : Log) (host : Host), l = l₁ ++ ⟨.connect host, .ok ()⟩ :: l₂ →
    ∃ inner rest, l₂ = inner ++ ⟨.close host, ()⟩ :: rest ∧ Only (Request.Within host) inner
  closed : l.sessions = []

/-- A log that is built from whole sessions, refused connections, and requests that concern no
session. -/
inductive Bracketed : Log → Prop
  | nil : Bracketed []
  | aside {e : Event} {l : Log} (he : e.request.IsAside) (h : Bracketed l) : Bracketed (e :: l)
  | refused {host : Host} {cause : RemoteError} {l : Log} (h : Bracketed l) :
    Bracketed (Log.refused host cause ++ l)
  | session {host : Host} {inner l : Log} (hi : Only (Request.Within host) inner)
    (h : Bracketed l) : Bracketed (Log.session host inner ++ l)

/-! ## From whole sessions to single events -/

theorem sessionsFrom_append (open_ : List Host) (l₁ l₂ : Log) :
    Log.sessionsFrom open_ (l₁ ++ l₂) = Log.sessionsFrom (l₁.sessionsFrom open_) l₂ :=
  List.foldl_append

theorem sessions_aside {e : Event} (h : e.request.IsAside) (open_ : List Host) :
    e.sessions open_ = open_ := by
  obtain ⟨r, answer⟩ := e
  cases r with
  | connect _ => exact absurd h id
  | close _ => exact absurd h id
  | _ => rfl

theorem sessionsFrom_within {host : Host} {inner : Log} (h : Only (Request.Within host) inner)
    (open_ : List Host) : inner.sessionsFrom open_ = open_ := by
  induction inner with
  | nil => rfl
  | cons e inner ih =>
    have he : e.sessions open_ = open_ := by
      have hw := h e List.mem_cons_self
      obtain ⟨r, answer⟩ := e
      cases r with
      | connect _ => exact absurd hw id
      | close _ => exact absurd hw id
      | _ => rfl
    show Log.sessionsFrom (e.sessions open_) inner = open_
    rw [he]
    exact ih fun e' he' => h e' (List.mem_cons_of_mem _ he')

/-- A whole session leaves the open sessions as they were. -/
theorem sessionsFrom_session {host : Host} {inner : Log} (h : Only (Request.Within host) inner)
    (open_ : List Host) : (Log.session host inner).sessionsFrom open_ = open_ := by
  show Log.sessionsFrom (host :: open_) (inner ++ [_]) = open_
  rw [sessionsFrom_append, sessionsFrom_within h]
  exact List.erase_cons_head host open_

/-- How an event stands in a bracketed log: between sessions, where a session that is opened is
closed again, or inside the only session that is open. -/
def Event.Stands (open_ : List Host) (e : Event) (rest : Log) : Prop :=
  (open_ = [] ∧
    (e.request.IsAside ∨ (∃ host cause, e = ⟨.connect host, .error cause⟩) ∨
      ∃ host inner l, e = ⟨.connect host, .ok ()⟩ ∧ rest = inner ++ ⟨.close host, ()⟩ :: l ∧
        Only (Request.Within host) inner)) ∨
  ∃ host, open_ = [host] ∧ (e.request.Within host ∨ e = ⟨.close host, ()⟩)

theorem Bracketed.closed {l : Log} (h : Bracketed l) : l.sessions = [] := by
  induction h with
  | nil => rfl
  | aside he _ ih =>
    show Log.sessionsFrom (Event.sessions [] _) _ = []
    rw [sessions_aside he]
    exact ih
  | refused _ ih => exact ih
  | session hi _ ih =>
    unfold Log.sessions at ih ⊢
    rw [sessionsFrom_append, sessionsFrom_session hi]
    exact ih

/-- Every event of a log stands in one of these ways. -/
def Log.Stands (l : Log) : Prop :=
  ∀ (l₁ : Log) (e : Event) (l₂ : Log), l = l₁ ++ e :: l₂ → e.Stands l₁.sessions l₂

theorem Log.Stands.aside {a : Event} {l : Log} (ha : a.request.IsAside) (h : l.Stands) :
    Log.Stands (a :: l) := by
  intro l₁ e l₂ hl
  obtain ⟨rfl, heq⟩ | ⟨l₁, rfl, hl'⟩ := List.cons_eq_append_iff.mp hl
  · obtain ⟨rfl, rfl⟩ := List.cons.inj heq
    exact .inl ⟨rfl, .inl ha⟩
  · have hs : Log.sessions (a :: l₁) = Log.sessions l₁ := by
      show Log.sessionsFrom (a.sessions []) l₁ = _
      rw [sessions_aside ha]
      rfl
    rw [hs]
    exact h l₁ e l₂ hl'

theorem Log.Stands.refused {host : Host} {cause : RemoteError} {l : Log} (h : l.Stands) :
    Log.Stands (Log.refused host cause ++ l) := by
  intro l₁ e l₂ hl
  obtain ⟨rfl, heq⟩ | ⟨l₁, rfl, hl'⟩ := List.cons_eq_append_iff.mp hl
  · obtain ⟨rfl, rfl⟩ := List.cons.inj heq
    exact .inl ⟨rfl, .inr (.inl ⟨host, cause, rfl⟩)⟩
  · exact h l₁ e l₂ hl'

/-- What is open after a log stays the same when a whole session comes before it. -/
theorem sessions_session_append {host : Host} {inner : Log} (hi : Only (Request.Within host) inner)
    (l : Log) : Log.sessions (Log.session host inner ++ l) = l.sessions := by
  unfold Log.sessions
  rw [sessionsFrom_append, sessionsFrom_session hi]

theorem Log.Stands.session {host : Host} {inner l : Log} (hi : Only (Request.Within host) inner)
    (h : l.Stands) : Log.Stands (Log.session host inner ++ l) := by
  intro l₁ e l₂ hl
  have hform (k : Log) : Log.session host inner ++ k =
      ⟨.connect host, .ok ()⟩ :: (inner ++ ⟨.close host, ()⟩ :: k) := by simp [Log.session]
  rw [hform] at hl
  obtain ⟨rfl, heq⟩ | ⟨l₁, rfl, hl'⟩ := List.cons_eq_append_iff.mp hl
  · obtain ⟨rfl, rfl⟩ := List.cons.inj heq
    exact .inl ⟨rfl, .inr (.inr ⟨host, inner, l, rfl, rfl, hi⟩)⟩
  have hopen {k : Log} (hk : Only (Request.Within host) k) :
      Log.sessions (⟨.connect host, .ok ()⟩ :: k) = [host] := sessionsFrom_within hk [host]
  obtain ⟨mid, rfl, hrest⟩ | ⟨rest, rfl, -⟩ := split_append hl'
  · -- the event comes after what is done in the session: it closes it, or it follows it
    obtain ⟨rfl, heq⟩ | ⟨l₁, rfl, hafter⟩ := List.cons_eq_append_iff.mp hrest
    · obtain ⟨rfl, rfl⟩ := List.cons.inj heq
      rw [List.append_nil]
      exact .inr ⟨host, hopen hi, .inr rfl⟩
    · rw [← hform, sessions_session_append hi]
      exact h l₁ e l₂ hafter
  · -- the event comes before the closing
    have hbefore : Only (Request.Within host) l₁ := fun e he => hi e (List.mem_append_left _ he)
    exact .inr ⟨host, hopen hbefore, .inl (hi e (by simp))⟩

theorem Bracketed.stands {l : Log} (h : Bracketed l) : l.Stands := by
  induction h with
  | nil =>
    intro l₁ e l₂ hl
    exact absurd hl.symm (by simp)
  | aside he _ ih => exact ih.aside he
  | refused _ ih => exact ih.refused
  | session hi _ ih => exact ih.session hi

namespace Event.Stands

variable {open_ : List Host} {host : Host} {e : Event} {rest : Log}

theorem one_open (h : e.Stands open_ rest) : open_.length ≤ 1 := by
  obtain ⟨rfl, -⟩ | ⟨host, rfl, -⟩ := h
  · exact Nat.zero_le 1
  · exact Nat.le_refl 1

/-- What takes an open session to a host stands where that session is the open one. -/
theorem taken (h : e.Stands open_ rest) (ht : e.request.Takes host) : open_ = [host] := by
  obtain ⟨-, ha | ⟨h', c, rfl⟩ | ⟨h', i, r, rfl, -⟩⟩ | ⟨host', rfl, hw | rfl⟩ := h
  · obtain ⟨r, answer⟩ := e
    cases r with
    | run _ _ => exact absurd ha id
    | write _ _ _ => exact absurd ha id
    | close _ => exact absurd ha id
    | _ => exact absurd ht id
  · exact absurd ht id
  · exact absurd ht id
  · obtain ⟨r, answer⟩ := e
    cases r with
    | run _ _ => rw [← hw.1, ht]
    | write _ _ _ => rw [← hw.1, ht]
    | close _ => exact absurd hw id
    | _ => exact absurd ht id
  · exact congrArg (fun h => [h]) ht

/-- An opening stands where what is done in the session, and its closing, come after it. -/
theorem closes (h : Event.Stands open_ ⟨.connect host, .ok ()⟩ rest) :
    ∃ inner l, rest = inner ++ ⟨.close host, ()⟩ :: l ∧ Only (Request.Within host) inner := by
  obtain ⟨-, ha | ⟨h', c, heq⟩ | ⟨h', i, l, heq, hrest, hi⟩⟩ | ⟨host', -, hw | heq⟩ := h
  · exact absurd ha id
  · cases heq
  · cases heq
    exact ⟨i, l, hrest, hi⟩
  · exact absurd hw id
  · cases heq

end Event.Stands

/-- A log of whole sessions is well bracketed, event by event. -/
theorem Bracketed.wellBracketed {l : Log} (h : Bracketed l) : l.WellBracketed where
  one_open := by
    rintro l₁ l₂ rfl
    cases l₂ with
    | nil =>
      rw [List.append_nil] at h
      rw [h.closed]
      exact Nat.zero_le 1
    | cons e l₂ => exact (h.stands l₁ e l₂ rfl).one_open
  taken l₁ e l₂ _ hl := (h.stands l₁ e l₂ hl).taken
  closes l₁ l₂ _ hl := (h.stands l₁ _ l₂ hl).closes
  closed := h.closed

/-! ## Logs of procedures -/

instance : Composes Bracketed where
  nil := .nil
  append := by
    intro l₁ l₂ h₁ h₂
    induction h₁ with
    | nil => exact h₂
    | aside he _ ih => exact .aside he ih
    | refused _ ih => exact .refused ih
    | session hi _ ih =>
      rw [List.append_assoc]
      exact .session hi ih

/-- Logs of whole sessions are bracketed, as long as what is asked in a session stays in it. -/
theorem bracketed_holdsOfSessions {allowed : Host → Request → Prop}
    (h : ∀ host r, allowed host r → r.Within host) : HoldsOfSessions allowed Bracketed where
  aside ha _ := .aside ha .nil
  refused host cause := by
    rw [← List.append_nil (Log.refused host cause)]
    exact .refused .nil
  session hinner := by
    rw [← List.append_nil (Log.session _ _)]
    exact .session (hinner.mono fun r => h _ r) .nil

end NodeFleet
