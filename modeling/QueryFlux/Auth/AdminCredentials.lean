import Mathlib.Data.List.Basic
import QueryFlux.Lib.Interleaved

/-!
# Credentials of the admin API

`AdminCredentialsManager` checks passwords against the credentials stored in the settings, and
against the bootstrap credentials from the configuration when there are none. `change_password`
writes the stored credentials, and nothing deletes them.

The manager's calls are computations that ask the settings store and the `bcrypt` crate. Any number
of them run at once; each read of the setting by one of them succeeds, fails, or gives a value that
does not parse. `load_db_credentials` takes a failure for "no stored credentials", so after the
first change of the password a failed read brings the bootstrap credentials back
(`bootstrap_accepted_after_read_error`). They stay off in the calls whose reads succeed
(`bootstrap_credentials_off`).
-/

namespace QueryFlux.Auth.Admin

open Lib

/-! ## The manager -/

variable {η : Type}

structure StoredCredentials (η : Type) where
  username : String
  passwordHash : η
  deriving DecidableEq

inductive Setting (η : Type)
  | credentials (c : StoredCredentials η)
  | unparsable

inductive SettingReply (η : Type)
  | ok (value : Option (Setting η))
  | error (message : String)

inductive HashReply (η : Type)
  | hashed (hash : η)
  | failed (message : String)
  | panicked (message : String)

inductive WriteReply
  | ok
  | error (message : String)

/-- What a call asks of the store and of bcrypt. -/
inductive Ask (η : Type)
  | getProxySetting
  | setProxySetting (c : StoredCredentials η)
  | bcryptHash (password : String)
  -- whether the password has the hash; a panic counts as no
  | bcryptVerify (password : String) (hash : η)

def Ask.Reply : Ask η → Type
  | .getProxySetting => SettingReply η
  | .setProxySetting _ => WriteReply
  | .bcryptHash _ => HashReply η
  | .bcryptVerify _ _ => Bool

def Ask.isRead : Ask η → Bool
  | .getProxySetting => true
  | .setProxySetting _ | .bcryptHash _ | .bcryptVerify _ _ => false

abbrev Program (η A : Type) := Asks (Ask η) Ask.Reply A

structure AdminCredentialsManager where
  bootstrapUsername : String
  bootstrapPassword : String
  hasStore : Bool

inductive ChangeError
  | auth (message : String)
  | store (message : String)
  deriving DecidableEq

namespace AdminCredentialsManager

variable (m : AdminCredentialsManager)

def parse : SettingReply η → Option (StoredCredentials η)
  | .ok (some (.credentials c)) => some c
  | .ok (some .unparsable) | .ok none | .error _ => none

def loadDbCredentials : Program η (Option (StoredCredentials η)) :=
  if m.hasStore then .ask .getProxySetting fun reply => .done (parse reply) else .done none

def verify (username password : String) : Program η Bool :=
  m.loadDbCredentials.bind fun stored =>
    match stored with
    | some stored =>
      if username ≠ stored.username then .done false
      else .ask (.bcryptVerify password stored.passwordHash) .done
    | none => .done (username == m.bootstrapUsername && password == m.bootstrapPassword)

/-- The last step of a change of password: what was hashed is stored. -/
def storeHash (username : String) : HashReply η → Program η (Except ChangeError Unit)
  | .panicked e => .done (.error (.auth ("bcrypt task panicked: " ++ e)))
  | .failed e => .done (.error (.auth ("bcrypt hash failed: " ++ e)))
  | .hashed hash =>
    if m.hasStore then
      .ask (.setProxySetting ⟨username, hash⟩) fun
        | .ok => .done (.ok ())
        | .error e => .done (.error (.store e))
    else
      .done (.error (.auth "admin password cannot be persisted: no settings store configured"))

def changePassword (currentPassword newPassword : String) : Program η (Except ChangeError Unit) :=
  m.loadDbCredentials.bind fun stored =>
    let username := (stored.map (·.username)).getD m.bootstrapUsername
    (m.verify username currentPassword).bind fun accepted =>
      if !accepted then .done (.error (.auth "current password is incorrect"))
      else if newPassword.utf8ByteSize < 8 then
        .done (.error (.auth "new password must be at least 8 characters"))
      else .ask (.bcryptHash newPassword) (m.storeHash username)

end AdminCredentialsManager

/-! ## Concurrent calls -/

inductive Request
  | verify (username password : String)
  | changePassword (currentPassword newPassword : String)
  deriving DecidableEq

inductive Outcome
  | verified (accepted : Bool)
  | changed (result : Except ChangeError Unit)

def Request.program (m : AdminCredentialsManager) : Request → Program η Outcome
  | .verify username password => (m.verify username password).map .verified
  | .changePassword current new => (m.changePassword current new).map .changed

/-- A call, and what is left of it. The rest is history: whether it started after a
`change_password` had returned `Ok`, what it asked so far, and the credentials that were stored when
it last read them. -/
structure Call (η : Type) where
  request : Request
  rest : Program η Outcome
  late : Bool
  past : List (Exchange (Ask η) Ask.Reply)
  basis : Option (StoredCredentials η)

structure State (η : Type) where
  stored : Option (StoredCredentials η)
  calls : List (Call η)

def Call.changedPassword (c : Call η) : Bool :=
  match c.rest with
  | .done (.changed (.ok ())) => true
  | _ => false

structure Bcrypt (η : Type) where
  hash : String → Nat → η
  verify : String → η → Bool

/-- How a question is answered; reads may fail or find a setting that cannot be parsed. -/
inductive Event
  | readStored
  | readFails (message : String)
  | readUnparsable
  | written
  | notWritten (message : String)
  -- the write took effect and its answer was lost
  | answerLost (message : String)
  | hashed (salt : Nat)
  | hashFails (message : String)
  | hashPanics (message : String)
  | verified
  | verifyPanics
  deriving DecidableEq

def reply (b : Bcrypt η) (stored : Option (StoredCredentials η)) :
    (q : Ask η) → Event → Option q.Reply
  | .getProxySetting, .readStored => some (SettingReply.ok (stored.map .credentials))
  | .getProxySetting, .readFails e => some (SettingReply.error e)
  | .getProxySetting, .readUnparsable => some (SettingReply.ok (some .unparsable))
  | .setProxySetting _, .written => some WriteReply.ok
  | .setProxySetting _, .notWritten e | .setProxySetting _, .answerLost e =>
    some (WriteReply.error e)
  | .bcryptHash password, .hashed salt => some (HashReply.hashed (b.hash password salt))
  | .bcryptHash _, .hashFails e => some (HashReply.failed e)
  | .bcryptHash _, .hashPanics e => some (HashReply.panicked e)
  | .bcryptVerify password hash, .verified => some (b.verify password hash)
  | .bcryptVerify _ _, .verifyPanics => some false
  | _, _ => none

def afterwards (stored : Option (StoredCredentials η)) :
    Ask η → Event → Option (StoredCredentials η)
  | .setProxySetting c, .written | .setProxySetting c, .answerLost _ => some c
  | _, _ => stored

inductive Move
  | start (r : Request)
  | goOn (i : Nat) (e : Event)

/-- The call with the answer to what it asks. A read of the setting remembers what is stored. -/
def Call.next (b : Bcrypt η) (stored : Option (StoredCredentials η)) (c : Call η) (q : Ask η)
    (k : q.Reply → Program η Outcome) (e : Event) : Option (Call η) :=
  (reply b stored q e).map fun r =>
    { c with
      rest := k r
      past := c.past ++ [⟨q, r⟩]
      basis := if q.isRead then stored else c.basis }

def State.step (m : AdminCredentialsManager) (b : Bcrypt η) (s : State η) :
    Move → Option (State η)
  | .start r =>
    some { s with calls := s.calls ++
      [⟨r, r.program m, s.calls.any Call.changedPassword, [], none⟩] }
  | .goOn i e =>
    (s.calls[i]?).bind fun c =>
      match c.rest with
      | .done _ => none
      | .ask q k =>
        (c.next b s.stored q k e).map fun c' => ⟨afterwards s.stored q e, s.calls.set i c'⟩

def system (m : AdminCredentialsManager) (b : Bcrypt η) : System (State η) Move where
  init s := s = ⟨none, []⟩
  step := State.step m b

/-- No read fails for a call that starts after a change. -/
def ReadsSucceed (s : State η) : Move → Prop
  | .goOn i e => (∃ message, e = .readFails message) ∨ e = .readUnparsable →
      ∀ c, s.calls[i]? = some c → c.late = false
  | .start _ => True

/-! ## What an answer rests on -/

def readOf : Exchange (Ask η) Ask.Reply → Option (Option (StoredCredentials η))
  | ⟨.getProxySetting, reply⟩ => some (AdminCredentialsManager.parse reply)
  | ⟨.setProxySetting _, _⟩ | ⟨.bcryptHash _, _⟩ | ⟨.bcryptVerify _ _, _⟩ => none

variable (past : List (Exchange (Ask η) Ask.Reply))

def lastRead : Option (StoredCredentials η) :=
  ((past.filterMap readOf).getLast?).join

def Trusted (b : Bcrypt η) : Exchange (Ask η) Ask.Reply → Prop
  | ⟨.getProxySetting, reply⟩ => ∃ c, reply = .ok (some (.credentials c))
  | ⟨.bcryptVerify password hash, accepted⟩ => accepted = true → b.verify password hash = true
  | ⟨.setProxySetting _, _⟩ | ⟨.bcryptHash _, _⟩ => True

def anyway (_ : List (Exchange (Ask η) Ask.Reply)) (_ : Exchange (Ask η) Ask.Reply) : Prop := True

theorem lastRead_read (reply : SettingReply η) :
    lastRead (past ++ [⟨.getProxySetting, reply⟩]) = AdminCredentialsManager.parse reply := by
  simp [lastRead, readOf]

theorem lastRead_other {e : Exchange (Ask η) Ask.Reply} (he : readOf e = none) :
    lastRead (past ++ [e]) = lastRead past := by
  simp [lastRead, he]

variable {past}

section Programs
variable {m : AdminCredentialsManager} {b : Bcrypt η} {past : List (Exchange (Ask η) Ask.Reply)}

theorem heeds_loadDbCredentials (hstore : m.hasStore = true) :
    (m.loadDbCredentials (η := η)).Heeds (Trusted b) anyway
      (fun stored past => ∃ c, stored = some c ∧ lastRead past = some c) past := by
  unfold AdminCredentialsManager.loadDbCredentials
  rw [if_pos hstore]
  rintro reply ⟨c, rfl⟩
  refine ⟨trivial, c, rfl, ?_⟩
  rw [lastRead_read]
  rfl

theorem heeds_verify (hstore : m.hasStore = true) (username password : String) :
    (m.verify (η := η) username password).Heeds (Trusted b) anyway
      (fun accepted past => accepted = true →
        ∃ c, lastRead past = some c ∧ username = c.username ∧
          b.verify password c.passwordHash = true) past := by
  refine (heeds_loadDbCredentials hstore).bind ?_
  rintro _ past ⟨c, rfl, hlast⟩
  dsimp only
  split_ifs with heq
  · nofun
  · intro accepted htrusted
    refine ⟨trivial, fun haccepted => ⟨c, ?_, not_not.1 heq, htrusted haccepted⟩⟩
    rw [lastRead_other past rfl, hlast]

theorem heeds_storeHash {ok : Exchange (Ask η) Ask.Reply → Prop} (username : String)
    (reply : HashReply η) (R : Option (StoredCredentials η) → Prop) (hR : R (lastRead past)) :
    (m.storeHash username reply).Heeds ok anyway
      (fun result past => result = .ok () → R (lastRead past) ∧ m.hasStore = true ∧
        ∃ c, ⟨.setProxySetting c, .ok⟩ ∈ past) past := by
  cases reply with
  | panicked | failed =>
    nofun
  | hashed =>
    unfold AdminCredentialsManager.storeHash
    dsimp only
    split_ifs with hstore
    · intro reply _
      refine ⟨trivial, ?_⟩
      cases reply with
      | ok =>
        intro _
        rw [lastRead_other past rfl]
        exact ⟨hR, hstore, _, List.mem_append_right _ (List.mem_singleton_self _)⟩
      | error =>
        nofun
    · nofun

theorem heeds_changePassword (hstore : m.hasStore = true) (current new : String) :
    (m.changePassword (η := η) current new).Heeds (Trusted b) anyway
      (fun result past => result = .ok () →
        ∃ c, lastRead past = some c ∧ b.verify current c.passwordHash = true) past := by
  refine (heeds_loadDbCredentials hstore).bind fun stored past _ => ?_
  refine (heeds_verify hstore _ current).bind fun accepted past haccepted => ?_
  cases accepted with
  | false =>
    nofun
  | true =>
    obtain ⟨c, hlast, -, hverify⟩ := haccepted rfl
    rw [if_neg (by simp)]
    split
    · nofun
    · intro reply _
      refine ⟨trivial, (heeds_storeHash _ reply (fun last => last = some c) ?_).mono ?_⟩
      · rw [lastRead_other past rfl, hlast]
      · intro result past' hresult hok
        exact ⟨c, (hresult hok).1, hverify⟩

theorem heeds_any {A : Type} (ok : Exchange (Ask η) Ask.Reply → Prop) (x : Program η A) :
    x.Heeds ok anyway (fun _ _ => True) past := by
  induction x generalizing past with
  | done => trivial
  | ask _ _ ih => exact fun d _ => ⟨trivial, ih d⟩

theorem heeds_changePassword_written (current new : String) :
    (m.changePassword (η := η) current new).Heeds (fun _ => True) anyway
      (fun result past => result = .ok () → m.hasStore = true ∧
        ∃ c, ⟨.setProxySetting c, .ok⟩ ∈ past) past := by
  refine (heeds_any _ _).bind fun stored past _ => ?_
  refine (heeds_any _ _).bind fun accepted past _ => ?_
  cases accepted with
  | false =>
    nofun
  | true =>
    rw [if_neg (by simp)]
    split
    · nofun
    · intro reply _
      refine ⟨trivial, (heeds_storeHash _ reply (fun _ => True) trivial).mono ?_⟩
      intro result past' hresult hok
      exact (hresult hok).2

end Programs

/-- Accepted only with the stored user name and a password that fits the stored hash. -/
def Rightly (b : Bcrypt η) (r : Request) (basis : Option (StoredCredentials η)) (o : Outcome) :
    Prop :=
  (∀ username password, r = .verify username password → o = .verified true →
    ∃ c, basis = some c ∧ username = c.username ∧ b.verify password c.passwordHash = true) ∧
  ∀ current new, r = .changePassword current new → o = .changed (.ok ()) →
    ∃ c, basis = some c ∧ b.verify current c.passwordHash = true

structure Kept (m : AdminCredentialsManager) (b : Bcrypt η) (s : State η) : Prop where
  ends : ∀ c ∈ s.calls, c.rest.Heeds (fun _ => True) anyway
    (fun o past => o = .changed (.ok ()) → m.hasStore = true ∧
      ∃ x, ⟨.setProxySetting x, .ok⟩ ∈ past) c.past
  written : ∀ c ∈ s.calls, ∀ x, ⟨.setProxySetting x, .ok⟩ ∈ c.past → s.stored ≠ none
  late : ∀ c ∈ s.calls, c.late = true → m.hasStore = true ∧ s.stored ≠ none
  relies : ∀ c ∈ s.calls, c.late = true → c.rest.Heeds (Trusted b) anyway
    (fun o past => Rightly b c.request (lastRead past) o) c.past
  basis : ∀ c ∈ s.calls, c.late = true → lastRead c.past = c.basis

section Runs
variable {m : AdminCredentialsManager} {b : Bcrypt η} {s s' : State η}

theorem afterwards_ne_none {stored : Option (StoredCredentials η)} (h : stored ≠ none) (q : Ask η)
    (e : Event) : afterwards stored q e ≠ none := by
  unfold afterwards
  split
  · exact Option.some_ne_none _
  · exact Option.some_ne_none _
  · exact h

theorem afterwards_of_written {stored : Option (StoredCredentials η)} {x : StoredCredentials η}
    {e : Event} (h : reply b stored (.setProxySetting x) e = some WriteReply.ok) :
    afterwards stored (.setProxySetting x) e = some x := by
  cases e with
  | written => rfl
  | notWritten | answerLost => cases h
  | readStored | readFails | readUnparsable | hashed | hashFails | hashPanics | verified
  | verifyPanics => cases h

theorem trusted_of_reply {x : StoredCredentials η} {q : Ask η} {e : Event} {r : q.Reply}
    (hfails : ∀ message, e ≠ .readFails message) (hparses : e ≠ .readUnparsable)
    (h : reply b (some x) q e = some r) :
    Trusted b ⟨q, r⟩ ∧ ∀ v, readOf ⟨q, r⟩ = some v → v = some x := by
  cases q with
  | getProxySetting =>
    cases e with
    | readStored =>
      cases h
      exact ⟨⟨x, rfl⟩, fun v hv => (Option.some.inj hv).symm⟩
    | readFails message => exact absurd rfl (hfails message)
    | readUnparsable => exact absurd rfl hparses
    | written | notWritten | answerLost | hashed | hashFails | hashPanics | verified
    | verifyPanics => cases h
  | setProxySetting | bcryptHash => exact ⟨trivial, nofun⟩
  | bcryptVerify =>
    refine ⟨?_, nofun⟩
    cases e with
    | verified =>
      cases h
      exact id
    | verifyPanics =>
      cases h
      nofun
    | readStored | readFails | readUnparsable | written | notWritten | answerLost | hashed
    | hashFails | hashPanics => cases h

theorem kept_start (h : Kept m b s) (r : Request) :
    Kept m b { s with calls := s.calls ++
      [⟨r, r.program m, s.calls.any Call.changedPassword, [], none⟩] } := by
  -- somebody has changed the password, so something is stored
  have hchanged (hlate : s.calls.any Call.changedPassword = true) :
      m.hasStore = true ∧ s.stored ≠ none := by
    obtain ⟨c, hc, hdone⟩ := List.any_eq_true.1 hlate
    unfold Call.changedPassword at hdone
    split at hdone
    · rename_i hrest
      have hends := h.ends c hc
      rw [hrest] at hends
      obtain ⟨hstore, x, hx⟩ := hends rfl
      exact ⟨hstore, h.written c hc x hx⟩
    · cases hdone
  have hcases {P : Call η → Prop} (hold : ∀ c ∈ s.calls, P c)
      (hnew : P ⟨r, r.program m, s.calls.any Call.changedPassword, [], none⟩) :
      ∀ c ∈ s.calls ++ [⟨r, r.program m, s.calls.any Call.changedPassword, [], none⟩], P c :=
    List.forall_mem_append.2 ⟨hold, List.forall_mem_singleton.2 hnew⟩
  refine ⟨hcases h.ends ?_, hcases h.written ?_, hcases h.late hchanged, hcases h.relies ?_,
    hcases h.basis fun _ => rfl⟩
  · cases r with
    | verify =>
      refine (heeds_any _ _).bind fun accepted past _ => ?_
      nofun
    | changePassword current new =>
      refine (heeds_changePassword_written current new).bind fun result past hresult => ?_
      intro hok
      exact hresult (Outcome.changed.inj hok)
  · nofun
  · intro hlate
    obtain ⟨hstore, -⟩ := hchanged hlate
    cases r with
    | verify username password =>
      refine (heeds_verify hstore username password).bind fun accepted past haccepted => ?_
      refine ⟨?_, nofun⟩
      intro username' password' hr hok
      cases hr
      exact haccepted (Outcome.verified.inj hok)
    | changePassword current new =>
      refine (heeds_changePassword hstore current new).bind fun result past hresult => ?_
      refine ⟨nofun, ?_⟩
      intro current' new' hr hok
      cases hr
      exact hresult (Outcome.changed.inj hok)

theorem kept_goOn (h : Kept m b s) {i : Nat} {e : Event} (hreads : ReadsSucceed s (.goOn i e))
    {c c' : Call η} (hc : s.calls[i]? = some c) {q : Ask η} {k : q.Reply → Program η Outcome}
    (hrest : c.rest = .ask q k) (hnext : c.next b s.stored q k e = some c') :
    Kept m b ⟨afterwards s.stored q e, s.calls.set i c'⟩ := by
  have hmem := List.mem_of_getElem? hc
  have hcases {P : Call η → Prop} (hold : ∀ c ∈ s.calls, P c) (hnew : P c') :
      ∀ c'' ∈ s.calls.set i c', P c'' := by
    intro c'' hc''
    rcases List.mem_or_eq_of_mem_set hc'' with hc'' | rfl
    · exact hold c'' hc''
    · exact hnew
  obtain ⟨r, hr, rfl⟩ := Option.map_eq_some_iff.1 hnext
  have hstored (hsome : s.stored ≠ none) := afterwards_ne_none hsome q e
  -- what a late call is answered
  have hlate (hlate : c.late = true) :
      Trusted b ⟨q, r⟩ ∧ ∀ v, readOf ⟨q, r⟩ = some v → v = s.stored := by
    obtain ⟨x, hx⟩ := Option.ne_none_iff_exists'.1 (h.late c hmem hlate).2
    rw [hx] at hr ⊢
    refine trusted_of_reply ?_ ?_ hr
    · rintro message rfl
      exact absurd hlate (by rw [hreads (.inl ⟨message, rfl⟩) c hc]; simp)
    · rintro rfl
      exact absurd hlate (by rw [hreads (.inr rfl) c hc]; simp)
  refine ⟨hcases h.ends ?_, hcases (fun c hc x hx => hstored (h.written c hc x hx)) ?_,
    hcases (fun c hc hl => ⟨(h.late c hc hl).1, hstored (h.late c hc hl).2⟩) ?_,
    hcases h.relies ?_, hcases h.basis ?_⟩
  · have hends := h.ends c hmem
    rw [hrest] at hends
    exact (hends r trivial).2
  · intro x hx
    rcases List.mem_append.1 hx with hx | hx
    · exact hstored (h.written c hmem x hx)
    · have heq := List.mem_singleton.1 hx
      cases heq
      rw [afterwards_of_written hr]
      exact Option.some_ne_none _
  · exact fun hl => ⟨(h.late c hmem hl).1, hstored (h.late c hmem hl).2⟩
  · intro hl
    have hrelies := h.relies c hmem hl
    rw [hrest] at hrelies
    exact (hrelies r (hlate hl).1).2
  · intro hl
    cases q with
    | getProxySetting =>
      exact (lastRead_read c.past r).trans ((hlate hl).2 _ rfl)
    | _ =>
      rw [lastRead_other _ rfl]
      exact h.basis c hmem hl

/-- The invariant holds in every reachable state. -/
theorem kept_of_reach (h : (system m b).Reach ReadsSucceed s) : Kept m b s := by
  refine h.invariant ?_ ?_
  · rintro _ rfl
    refine ⟨?_, ?_, ?_, ?_, ?_⟩
    all_goals
      nofun
  · intro s a s' hkept hok hs
    cases a with
    | start r =>
      cases hs
      exact kept_start hkept r
    | goOn =>
      obtain ⟨c, hc, hs⟩ := Option.bind_eq_some_iff.1 hs
      split at hs
      · cases hs
      · rename_i q k hrest
        obtain ⟨c', hnext, rfl⟩ := Option.map_eq_some_iff.1 hs
        exact kept_goOn hkept hok hc hrest hnext

/-- After a change of password, a call that starts later answers by the stored credentials alone, as
long as its reads succeed. -/
theorem bootstrap_credentials_off (h : (system m b).Reach ReadsSucceed s) {c : Call η}
    (hc : c ∈ s.calls) (hlate : c.late = true) {o : Outcome} (hdone : c.rest = .done o) :
    Rightly b c.request c.basis o := by
  have hkept := kept_of_reach h
  have hrelies := hkept.relies c hc hlate
  rw [hdone] at hrelies
  rw [← hkept.basis c hc hlate]
  exact hrelies

end Runs

def plain : Bcrypt String := ⟨fun password _ => password, fun password hash => password == hash⟩

def admin : AdminCredentialsManager := ⟨"admin", "bootstrap", true⟩

def changedThenVerified (current : String) (read : Event) : List Move :=
  [.start (.changePassword "bootstrap" "new-secret"), .goOn 0 .readStored, .goOn 0 .readStored,
    .goOn 0 (.hashed 0), .goOn 0 .written, .start (.verify "admin" current), .goOn 1 read]

def readsSucceed (s : State η) : Move → Bool
  | .goOn i (.readFails _) | .goOn i .readUnparsable => (s.calls[i]?).all fun c => !c.late
  | _ => true

theorem readsSucceed_of_test {s : State η} {a : Move} (h : readsSucceed s a = true) :
    ReadsSucceed s a := by
  cases a with
  | start => trivial
  | goOn =>
    intro hfails c hc
    rcases hfails with ⟨message, rfl⟩ | rfl <;> simpa [readsSucceed, hc] using h

def accepts (s : State String) (request : Request) : Bool :=
  s.calls.any fun c => c.late && c.request == request &&
    match c.rest with
    | .done (.verified true) => true
    | _ => false

theorem accepts_iff {s : State String} {request : Request} (h : accepts s request = true) :
    ∃ c ∈ s.calls, c.late = true ∧ c.request = request ∧ c.rest = .done (.verified true) := by
  obtain ⟨c, hc, htest⟩ := List.any_eq_true.1 h
  simp only [Bool.and_eq_true, beq_iff_eq] at htest
  refine ⟨c, hc, htest.1.1, htest.1.2, ?_⟩
  have hdone := htest.2
  split at hdone
  · assumption
  · cases hdone

/-- The new password is accepted once it is stored. -/
theorem new_password_accepted :
    ∃ s, (system admin plain).Reach ReadsSucceed s ∧ ∃ c ∈ s.calls, c.late = true ∧
      c.request = .verify "admin" "new-secret" ∧ c.rest = .done (.verified true) ∧
      Rightly plain c.request c.basis (.verified true) := by
  have hrun : ((system admin plain).runIf readsSucceed ⟨none, []⟩
      (changedThenVerified "new-secret" .readStored ++ [.goOn 1 .verified])).any
        (accepts · (.verify "admin" "new-secret")) = true := by
    decide +kernel
  obtain ⟨s, hreach, htest⟩ :=
    System.Reach.exists_of_runIf (fun _ _ => readsSucceed_of_test) (.init rfl) hrun
  obtain ⟨c, hc, hlate, hrequest, hdone⟩ := accepts_iff htest
  exact ⟨s, hreach, c, hc, hlate, hrequest, hdone,
    bootstrap_credentials_off hreach hc hlate hdone⟩

/-- When the read fails, the bootstrap password is accepted again. -/
theorem bootstrap_accepted_after_read_error :
    ∃ s, (system admin plain).Reach (fun _ _ => True) s ∧
      s.stored = some ⟨"admin", "new-secret"⟩ ∧ ∃ c ∈ s.calls, c.late = true ∧
        c.request = .verify "admin" "bootstrap" ∧ c.rest = .done (.verified true) := by
  obtain ⟨s, hreach, hstored, haccepts⟩ : ∃ s,
      (system admin plain).Reach (fun _ _ => True) s ∧ s.stored = some ⟨"admin", "new-secret"⟩ ∧
      accepts s (.verify "admin" "bootstrap") = true :=
    System.Reach.exists_of_run (.init rfl)
      (changedThenVerified "bootstrap" (.readFails "connection reset")) (by decide +kernel)
  exact ⟨s, hreach, hstored, accepts_iff haccepts⟩

end QueryFlux.Auth.Admin
