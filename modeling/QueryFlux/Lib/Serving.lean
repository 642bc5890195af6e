import Mathlib.Data.List.Forall2
import QueryFlux.Lib.Transition

/-!
# Servers that answer one command after the other

A service reads a command off the bytes a client has sent, and handles it before it reads the next
one: it replies at once, or starts a task and forwards the messages the task sends as they come.
Bytes arrive at any time. Forwarding races with a probe that fires once the client's side can be
read, be it for bytes or because the client is gone; the service then gives the response up and goes
on reading.

`Served` says that the client gets one complete response for each command, in the order of the
commands, or a prefix of that until the connection is closed. It holds of every run in which the
tasks make the calls of a complete response and the probe does not fire on bytes in the middle of
one (`Service.served`).
-/

namespace QueryFlux.Lib

open List

/-! ## Services and dialogues -/

variable {γ κ σ ε τ ι : Type}

/-- What is at the front of the bytes that have arrived. -/
inductive Found (γ κ : Type)
  | wait
  | failed
  | got (command : κ) (rest : List γ)

/-- A command closes the connection, is answered at once, or starts a task. -/
inductive Handling (γ σ τ : Type)
  | close
  | reply (session : σ) (bytes : List γ)
  | run (session : σ) (task : τ)

/-- A service with bytes `γ`, commands `κ` and sessions `σ`, where `ε` is what its surroundings say
about a command. A task has a state `τ` and makes calls `ι`. -/
structure Service (γ κ σ ε τ ι : Type) where
  read : List γ → Found γ κ
  handle : σ → ε → κ → Handling γ σ τ
  call : τ → ι → τ
  -- the messages the task has sent so far
  sent : τ → List (List γ)
  -- written behind the messages of a task
  trailer : List γ

/-- Between commands, while a task runs, or at the end. -/
inductive Phase (τ : Type)
  | reading
  | running (task : τ) (written : Nat) (ended : Bool)
  | closed

structure Dialogue (γ κ σ τ ι : Type) where
  session : σ
  phase : Phase τ
  inbox : List γ
  gone : Bool
  out : List γ
  -- everything that has arrived, the commands read from it, the task started last and its calls
  received : List γ
  commands : List κ
  started : Option τ
  calls : List ι

/-- A write may fail behind the first bytes, which closes the connection. -/
inductive Move (γ ε ι : Type)
  | arrive (bytes : List γ)
  | hangUp
  | command (surroundings : ε) (cut : Option Nat)
  | unreadable
  | call (c : ι)
  | finish
  | forward (cut : Option Nat)
  | probe
  | endResponse (cut : Option Nat)

namespace Dialogue

def start (session : σ) : Dialogue γ κ σ τ ι := ⟨session, .reading, [], false, [], [], [], none, []⟩

/-- Bytes are written, all of them or up to a failure. -/
def put (s : Dialogue γ κ σ τ ι) (bytes : List γ) : Option Nat → Dialogue γ κ σ τ ι
  | none => { s with out := s.out ++ bytes }
  | some n => { s with out := s.out ++ bytes.take n, phase := .closed }

def handled (s : Dialogue γ κ σ τ ι) (c : κ) (rest : List γ) (cut : Option Nat) :
    Handling γ σ τ → Dialogue γ κ σ τ ι
  | .close => { s with phase := .closed }
  | .reply session bytes =>
    { s with session := session, inbox := rest, commands := s.commands ++ [c] }.put bytes cut
  | .run session task =>
    { s with
      session := session, inbox := rest, commands := s.commands ++ [c], started := some task,
      calls := [], phase := .running task 0 false }

end Dialogue

namespace Service

variable (S : Service γ κ σ ε τ ι)

def step (s : Dialogue γ κ σ τ ι) : Move γ ε ι → Option (Dialogue γ κ σ τ ι)
  | .arrive bytes =>
    if s.gone then none
    else some { s with inbox := s.inbox ++ bytes, received := s.received ++ bytes }
  | .hangUp => some { s with gone := true }
  | .command surroundings cut =>
    match s.phase, S.read s.inbox with
    | .reading, .got c rest => some (s.handled c rest cut (S.handle s.session surroundings c))
    | _, _ => none
  | .unreadable =>
    match s.phase, S.read s.inbox with
    | .reading, .failed => some { s with phase := .closed }
    | .reading, .wait => if s.gone then some { s with phase := .closed } else none
    | _, _ => none
  | .call c =>
    match s.phase with
    | .running task written false =>
      some { s with phase := .running (S.call task c) written false, calls := s.calls ++ [c] }
    | _ => none
  | .finish =>
    match s.phase with
    | .running task written false => some { s with phase := .running task written true }
    | _ => none
  | .forward cut =>
    match s.phase with
    | .running task written ended =>
      ((S.sent task)[written]?).map fun message =>
        { s with phase := .running task (written + 1) ended }.put message cut
    | _ => none
  | .probe =>
    match s.phase with
    | .running .. =>
      if s.inbox.isEmpty && !s.gone then none else some { s with phase := .reading }
    | _ => none
  | .endResponse cut =>
    match s.phase with
    | .running task written true =>
      if (S.sent task).length ≤ written then
        some ({ s with phase := .reading }.put S.trailer cut)
      else none
    | _ => none

variable {S} in
theorem step_command {s : Dialogue γ κ σ τ ι} {c : κ} {rest : List γ} (hs : s.phase = .reading)
    (hread : S.read s.inbox = .got c rest) (e : ε) (cut : Option Nat) :
    S.step s (.command e cut) = some (s.handled c rest cut (S.handle s.session e c)) := by
  rw [step, hs, hread]

def system (session : σ) : System (Dialogue γ κ σ τ ι) (Move γ ε ι) where
  init := (· = .start session)
  step := S.step

end Service

/-! ## What is served -/

/-- The commands read off the front, and what is left. -/
inductive Takes (read : List γ → Found γ κ) : List γ → List κ → List γ → Prop
  | nil (bytes : List γ) : Takes read bytes [] bytes
  | cons {bytes rest rest' : List γ} {c : κ} {cs : List κ} (h : read bytes = .got c rest)
      (hcs : Takes read rest cs rest') : Takes read bytes (c :: cs) rest'

/-- The commands were read in the order they arrived in, and what was written is a prefix of one
complete response for each, and all of that where the next command can still be read. -/
structure Served (S : Service γ κ σ ε τ ι) (complete : κ → List γ → Prop)
    (s : Dialogue γ κ σ τ ι) : Prop where
  order : Takes S.read s.received s.commands s.inbox
  responses : ∃ responses, List.Forall₂ complete s.commands responses ∧
    s.out <+: responses.flatten ∧
    (s.phase = .reading → ¬ (s.gone = true ∧ s.inbox = []) → s.out = responses.flatten)

/-- What a service has to keep to. `fine` says when a command can be answered at once, and `full`
which calls of a task make up a complete response. -/
structure Service.Lawful (S : Service γ κ σ ε τ ι) (complete : κ → List γ → Prop)
    (fine : σ → ε → κ → Prop) (full : τ → List ι → Prop) : Prop where
  read_nil : ∀ c rest, S.read [] ≠ .got c rest
  read_append : ∀ {bytes rest : List γ} {c : κ}, S.read bytes = .got c rest →
    ∀ more, S.read (bytes ++ more) = .got c (rest ++ more)
  reply : ∀ {session session' : σ} {e : ε} {c : κ} {bytes : List γ},
    fine session e c → S.handle session e c = .reply session' bytes → complete c bytes
  start : ∀ {session session' : σ} {e : ε} {c : κ} {task : τ},
    S.handle session e c = .run session' task → S.sent task = []
  sent_call : ∀ task c, S.sent task <+: S.sent (S.call task c)
  run : ∀ {session session' : σ} {e : ε} {c : κ} {task : τ} {calls : List ι},
    S.handle session e c = .run session' task → full task calls →
      complete c ((S.sent (calls.foldl S.call task)).flatten ++ S.trailer)
  exists_full : ∀ {session session' : σ} {e : ε} {c : κ} {task : τ},
    S.handle session e c = .run session' task → ∃ calls, full task calls

/-- The commands are fine, and the tasks make the calls of a complete response before they end. -/
def Orderly (S : Service γ κ σ ε τ ι) (fine : σ → ε → κ → Prop) (full : τ → List ι → Prop)
    (s : Dialogue γ κ σ τ ι) : Move γ ε ι → Prop
  | .command e _ => ∀ c rest, S.read s.inbox = .got c rest → fine s.session e c
  | .call c => ∀ task ∈ s.started, ∃ more, full task (s.calls ++ c :: more)
  | .finish => ∀ task ∈ s.started, full task s.calls
  | _ => True

def Dialogue.Written (S : Service γ κ σ ε τ ι) (s : Dialogue γ κ σ τ ι) : Prop :=
  ∃ task written, s.phase = .running task written true ∧ (S.sent task).length ≤ written ∧
    S.trailer = []

/-- The probe does not fire on bytes before the response is written. -/
def Undisturbed (S : Service γ κ σ ε τ ι) (s : Dialogue γ κ σ τ ι) : Move γ ε ι → Prop
  | .probe => s.inbox = [] ∨ s.Written S
  | _ => True

section Reading

variable {read : List γ → Found γ κ} {bytes rest : List γ} {cs : List κ}

/-- What arrives later does not change what was taken. -/
theorem Takes.append
    (hread : ∀ {bytes rest : List γ} {c : κ}, read bytes = .got c rest →
      ∀ more, read (bytes ++ more) = .got c (rest ++ more))
    (h : Takes read bytes cs rest) (more : List γ) :
    Takes read (bytes ++ more) cs (rest ++ more) := by
  induction h with
  | nil => exact .nil _
  | cons h _ ih => exact .cons (hread h more) ih

theorem Takes.snoc (h : Takes read bytes cs rest) {c : κ} {rest' : List γ}
    (hread : read rest = .got c rest') : Takes read bytes (cs ++ [c]) rest' := by
  induction h with
  | nil => exact .cons hread (.nil _)
  | cons h _ ih => exact .cons h (ih hread)

end Reading

section Runs

variable {S : Service γ κ σ ε τ ι} {complete : κ → List γ → Prop} {fine : σ → ε → κ → Prop}
  {full : τ → List ι → Prop}

/-- One complete response for each command, in order. -/
def Answered (complete : κ → List γ → Prop) (cs : List κ) (bytes : List γ) : Prop :=
  ∃ responses, List.Forall₂ complete cs responses ∧ bytes = responses.flatten

variable {bytes : List γ}

theorem Answered.snoc {cs : List κ} {c : κ} {response : List γ} (h : Answered complete cs bytes)
    (hc : complete c response) : Answered complete (cs ++ [c]) (bytes ++ response) := by
  obtain ⟨responses, hall, rfl⟩ := h
  refine ⟨responses ++ [response], rel_append hall (.cons hc .nil), ?_⟩
  rw [flatten_append, flatten_singleton]

/-- A start of such bytes. -/
def Begun (complete : κ → List γ → Prop) (cs : List κ) (bytes : List γ) : Prop :=
  ∃ all, Answered complete cs all ∧ bytes <+: all

theorem Answered.begun {cs : List κ} (h : Answered complete cs bytes) : Begun complete cs bytes :=
  ⟨bytes, h, prefix_refl _⟩

theorem Begun.mono {cs : List κ} {bytes' : List γ} (h : Begun complete cs bytes)
    (hle : bytes' <+: bytes) : Begun complete cs bytes' := by
  obtain ⟨all, hall, hpre⟩ := h
  exact ⟨all, hall, hle.trans hpre⟩

/-! ## While a task runs -/

/-- What was written for the running command is a start of its response. -/
structure Forwarding (S : Service γ κ σ ε τ ι) (complete : κ → List γ → Prop)
    (full : τ → List ι → Prop) (s : Dialogue γ κ σ τ ι) (task : τ) (written : Nat)
    (ended : Bool) : Prop where
  written_le : written ≤ (S.sent task).length
  calls : ∀ start ∈ s.started,
    if ended then full start s.calls else ∃ more, full start (s.calls ++ more)
  handled : ∃ cs c before, ∃ start ∈ s.started, s.commands = cs ++ [c] ∧
    Answered complete cs before ∧
    (∃ session session' e, S.handle session e c = .run session' start) ∧
    task = s.calls.foldl S.call start ∧
    s.out = before ++ ((S.sent task).take written).flatten

def PhaseInv (S : Service γ κ σ ε τ ι) (complete : κ → List γ → Prop)
    (full : τ → List ι → Prop) (s : Dialogue γ κ σ τ ι) : Phase τ → Prop
  | .reading => Answered complete s.commands s.out ∨
      s.gone = true ∧ s.inbox = [] ∧ Begun complete s.commands s.out
  | .running task written ended => Forwarding S complete full s task written ended
  | .closed => Begun complete s.commands s.out

/-- The invariant of a dialogue. -/
structure ServingInv (S : Service γ κ σ ε τ ι) (complete : κ → List γ → Prop)
    (full : τ → List ι → Prop) (s : Dialogue γ κ σ τ ι) : Prop where
  order : Takes S.read s.received s.commands s.inbox
  phase : PhaseInv S complete full s s.phase

variable {s s' : Dialogue γ κ σ τ ι} {task : τ} {written : Nat} {ended : Bool}

/-- A task only ever appends to what it has sent. -/
theorem sent_foldl (hlaw : S.Lawful complete fine full) (task : τ) (calls : List ι) :
    S.sent task <+: S.sent (calls.foldl S.call task) := by
  induction calls generalizing task with
  | nil => exact prefix_refl _
  | cons c _ ih => exact (hlaw.sent_call task c).trans (ih (S.call task c))

theorem prefix_flatten_flatten {xs ys : List (List γ)} (h : xs <+: ys) :
    xs.flatten <+: ys.flatten := by
  obtain ⟨zs, rfl⟩ := h
  rw [flatten_append]
  exact prefix_append _ _

theorem Forwarding.exists_full (h : Forwarding S complete full s task written ended) {start : τ}
    (hstart : start ∈ s.started) : ∃ more, full start (s.calls ++ more) := by
  have hcalls := h.calls start hstart
  cases ended with
  | false => exact hcalls
  | true => exact ⟨[], by rw [append_nil]; exact hcalls⟩

/-- What is written and what is still to be forwarded is a start of the responses. -/
theorem Forwarding.begun (h : Forwarding S complete full s task written ended)
    (hlaw : S.Lawful complete fine full) :
    Begun complete s.commands (s.out ++ ((S.sent task).drop written).flatten) := by
  obtain ⟨cs, c, before, start, hstart, hcommands, hbefore, ⟨session, session', e, hrun⟩, htask,
    hout⟩ := h.handled
  obtain ⟨more, hfull⟩ := h.exists_full hstart
  have hresponse := hlaw.run hrun hfull
  rw [foldl_append, ← htask] at hresponse
  refine ⟨_, hcommands ▸ hbefore.snoc hresponse, ?_⟩
  rw [hout, append_assoc, ← flatten_append, take_append_drop]
  exact (prefix_append_right_inj _).2
    ((prefix_flatten_flatten (sent_foldl hlaw task more)).trans (prefix_append _ _))

/-- When all is forwarded the last command is answered. -/
theorem Forwarding.answered (h : Forwarding S complete full s task written true)
    (hlaw : S.Lawful complete fine full) (hall : (S.sent task).length ≤ written) :
    Answered complete s.commands (s.out ++ S.trailer) := by
  obtain ⟨cs, c, before, start, hstart, hcommands, hbefore, ⟨session, session', e, hrun⟩, htask,
    hout⟩ := h.handled
  have hresponse := hlaw.run hrun (h.calls start hstart)
  rw [← htask] at hresponse
  rw [hcommands, hout, take_of_length_le hall, append_assoc]
  exact hbefore.snoc hresponse

theorem Forwarding.call (h : Forwarding S complete full s task written false)
    (hlaw : S.Lawful complete fine full) {c : ι}
    (hc : ∀ start ∈ s.started, ∃ more, full start (s.calls ++ c :: more)) :
    Forwarding S complete full
      { s with phase := .running (S.call task c) written false, calls := s.calls ++ [c] }
      (S.call task c) written false := by
  obtain ⟨cs, command, before, start, hstart, hcommands, hbefore, hrun, htask, hout⟩ := h.handled
  have hsent := hlaw.sent_call task c
  refine ⟨Nat.le_trans h.written_le hsent.length_le, fun start hstart => ?_, cs, command, before,
    start, hstart, hcommands, hbefore, hrun, ?_, ?_⟩
  · obtain ⟨more, hmore⟩ := hc start hstart
    exact ⟨more, by rw [append_assoc]; exact hmore⟩
  · rw [foldl_append, ← htask]
    rfl
  · obtain ⟨rest, hrest⟩ := hsent
    rw [← hrest, take_append_of_le_length h.written_le]
    exact hout

theorem Forwarding.forward (h : Forwarding S complete full s task written ended) {message : List γ}
    (hmessage : (S.sent task)[written]? = some message) :
    Forwarding S complete full
      { s with phase := .running task (written + 1) ended, out := s.out ++ message }
      task (written + 1) ended := by
  obtain ⟨cs, command, before, start, hstart, hcommands, hbefore, hrun, htask, hout⟩ := h.handled
  obtain ⟨hlt, hget⟩ := List.getElem?_eq_some_iff.1 hmessage
  refine ⟨hlt, h.calls, cs, command, before, start, hstart, hcommands, hbefore, hrun, htask, ?_⟩
  rw [hout, List.take_add_one, hmessage, List.flatten_append, List.append_assoc]
  simp

section
variable (h : ServingInv S complete full s)
include h

theorem ServingInv.begun (hlaw : S.Lawful complete fine full) :
    Begun complete s.commands s.out := by
  have hphase := h.phase
  cases hs : s.phase with
  | reading =>
    rw [hs] at hphase
    exact hphase.elim Answered.begun fun h => h.2.2
  | running =>
    rw [hs] at hphase
    exact (Forwarding.begun hphase hlaw).mono (prefix_append _ _)
  | closed =>
    rw [hs] at hphase
    exact hphase

/-! ## Each move -/

theorem ServingInv.arrive (hlaw : S.Lawful complete fine full) (hgone : s.gone = false)
    (bytes : List γ) :
    ServingInv S complete full
      { s with inbox := s.inbox ++ bytes, received := s.received ++ bytes } := by
  refine ⟨h.order.append hlaw.read_append bytes, ?_⟩
  have hphase := h.phase
  cases hs : s.phase with
  | reading =>
    rw [hs] at hphase
    obtain hphase | ⟨htrue, -⟩ := hphase
    · exact .inl hphase
    · rw [hgone] at htrue
      cases htrue
  | running =>
    rw [hs] at hphase
    exact ⟨hphase.written_le, hphase.calls, hphase.handled⟩
  | closed =>
    rw [hs] at hphase
    exact hphase

theorem ServingInv.hangUp : ServingInv S complete full { s with gone := true } := by
  refine ⟨h.order, ?_⟩
  have hphase := h.phase
  cases hs : s.phase with
  | reading =>
    rw [hs] at hphase
    exact hphase.imp_right fun ⟨_, hinbox, hbegun⟩ => ⟨rfl, hinbox, hbegun⟩
  | running =>
    rw [hs] at hphase
    exact ⟨hphase.written_le, hphase.calls, hphase.handled⟩
  | closed =>
    rw [hs] at hphase
    exact hphase

end

theorem prefix_append_take (out bytes : List γ) (n : Nat) :
    out ++ bytes.take n <+: out ++ bytes :=
  (prefix_append_right_inj _).2 ( take_prefix n bytes)

section
variable (h : ServingInv S complete full s)
include h

/-- The invariant is kept when a command is handled. -/
theorem ServingInv.command (hlaw : S.Lawful complete fine full) (hreading : s.phase = .reading)
    {c : κ} {rest : List γ} (hread : S.read s.inbox = .got c rest) {e : ε}
    (hfine : fine s.session e c) (cut : Option Nat) :
    ServingInv S complete full (s.handled c rest cut (S.handle s.session e c)) := by
  have hanswered : Answered complete s.commands s.out := by
    have hphase := h.phase
    rw [hreading] at hphase
    obtain hphase | ⟨-, hnil, -⟩ := hphase
    · exact hphase
    · rw [hnil] at hread
      exact (hlaw.read_nil c rest hread).elim
  have horder := h.order.snoc hread
  cases hhandle : S.handle s.session e c with
  | close => exact ⟨h.order, hanswered.begun⟩
  | reply =>
    have hall := hanswered.snoc (hlaw.reply hfine hhandle)
    cases cut with
    | none =>
      refine ⟨horder, ?_⟩
      change PhaseInv S complete full _ s.phase
      rw [hreading]
      exact .inl hall
    | some => exact ⟨horder, hall.begun.mono (prefix_append_take _ _ _)⟩
  | run session task =>
    refine ⟨horder, Nat.zero_le _, fun start hstart => ?_, s.commands, c, s.out, task, rfl, rfl,
      hanswered, ⟨s.session, session, e, hhandle⟩, rfl, ?_⟩
    · cases hstart
      exact hlaw.exists_full hhandle
    · exact (append_nil _).symm

theorem ServingInv.closed (hlaw : S.Lawful complete fine full) :
    ServingInv S complete full { s with phase := .closed } :=
  ⟨h.order, h.begun hlaw⟩

theorem ServingInv.forwarding (hs : s.phase = .running task written ended) :
    Forwarding S complete full s task written ended := by
  have hphase := h.phase
  rw [hs] at hphase
  exact hphase

section
variable (hlaw : S.Lawful complete fine full)
include hlaw

theorem ServingInv.forward (hs : s.phase = .running task written ended) {message : List γ}
    (hmessage : (S.sent task)[written]? = some message) (cut : Option Nat) :
    ServingInv S complete full
      ({ s with phase := .running task (written + 1) ended }.put message cut) := by
  have hrun := h.forwarding hs
  cases cut with
  | none => exact ⟨h.order, hrun.forward hmessage⟩
  | some n =>
    have hnext := (hrun.forward hmessage).begun hlaw
    exact ⟨h.order,
      hnext.mono ((prefix_append_take s.out message n).trans (prefix_append _ _))⟩

theorem ServingInv.probe (hreadable : ¬ (s.inbox.isEmpty && !s.gone) = true)
    (hok : s.inbox = [] ∨ s.Written S) :
    ServingInv S complete full { s with phase := .reading } := by
  refine ⟨h.order, ?_⟩
  obtain hnil | ⟨task', written', hs', hall, htrailer⟩ := hok
  · refine .inr ⟨?_, hnil, h.begun hlaw⟩
    rw [hnil] at hreadable
    simpa using hreadable
  · have hanswered := (h.forwarding hs').answered hlaw hall
    rw [htrailer, append_nil] at hanswered
    exact .inl hanswered

theorem ServingInv.endResponse (hs : s.phase = .running task written true)
    (hall : (S.sent task).length ≤ written) (cut : Option Nat) :
    ServingInv S complete full ({ s with phase := .reading }.put S.trailer cut) := by
  have hanswered := (h.forwarding hs).answered hlaw hall
  cases cut with
  | none => exact ⟨h.order, .inl hanswered⟩
  | some => exact ⟨h.order, hanswered.begun.mono (prefix_append_take _ _ _)⟩

end

end

/-- Every move keeps the invariant. -/
theorem ServingInv.step (hlaw : S.Lawful complete fine full) {m : Move γ ε ι}
    (h : ServingInv S complete full s) (horderly : Orderly S fine full s m)
    (hundisturbed : Undisturbed S s m) (hstep : S.step s m = some s') :
    ServingInv S complete full s' := by
  cases m with
  | arrive bytes =>
    rw [Service.step] at hstep
    split at hstep
    · cases hstep
    · rename_i hgone
      cases hstep
      exact h.arrive hlaw (Bool.eq_false_iff.2 hgone) bytes
  | hangUp =>
    cases hstep
    exact h.hangUp
  | command e cut =>
    rw [Service.step] at hstep
    split at hstep
    · rename_i c rest hs hread
      cases hstep
      exact h.command hlaw hs hread (horderly c rest hread) cut
    · cases hstep
  | unreadable =>
    rw [Service.step] at hstep
    split at hstep
    · cases hstep
      exact h.closed hlaw
    · split at hstep
      · cases hstep
        exact h.closed hlaw
      · cases hstep
    · cases hstep
  | call =>
    rw [Service.step] at hstep
    split at hstep
    · rename_i task written hs
      cases hstep
      exact ⟨h.order, (h.forwarding hs).call hlaw horderly⟩
    · cases hstep
  | finish =>
    rw [Service.step] at hstep
    split at hstep
    · rename_i task written hs
      cases hstep
      have hrun := h.forwarding hs
      exact ⟨h.order, hrun.written_le, horderly, hrun.handled⟩
    · cases hstep
  | forward cut =>
    rw [Service.step] at hstep
    split at hstep
    · rename_i task written ended hs
      obtain ⟨message, hmessage, rfl⟩ := Option.map_eq_some_iff.1 hstep
      exact h.forward hlaw hs hmessage cut
    · cases hstep
  | probe =>
    rw [Service.step] at hstep
    split at hstep
    · split at hstep
      · cases hstep
      · rename_i hreadable
        cases hstep
        exact h.probe hlaw hreadable hundisturbed
    · cases hstep
  | endResponse cut =>
    rw [Service.step] at hstep
    split at hstep
    · rename_i task written hs
      split at hstep
      · rename_i hall
        cases hstep
        exact h.endResponse hlaw hs hall cut
      · cases hstep
    · cases hstep

/-- The invariant says what was served so far. -/
theorem ServingInv.served (h : ServingInv S complete full s) (hlaw : S.Lawful complete fine full) :
    Served S complete s := by
  refine ⟨h.order, ?_⟩
  obtain ⟨all, ⟨responses, hall, rfl⟩, hpre⟩ := h.begun hlaw
  by_cases hanswered : Answered complete s.commands s.out
  · obtain ⟨responses, hall, hout⟩ := hanswered
    exact ⟨responses, hall, hout ▸ prefix_refl _, fun _ _ => hout⟩
  · refine ⟨responses, hall, hpre, fun hreading hlive => ?_⟩
    have hphase := h.phase
    rw [hreading] at hphase
    exact hphase.elim (fun h => (hanswered h).elim) fun h => (hlive ⟨h.1, h.2.1⟩).elim

/-- Every command is answered in turn, in whatever order bytes arrive and messages are sent. -/
theorem Service.served (hlaw : S.Lawful complete fine full) {session : σ}
    (h : (S.system session).Reach (fun s m => Orderly S fine full s m ∧ Undisturbed S s m) s) :
    Served S complete s := by
  refine ServingInv.served (System.Reach.invariant ?_ ?_ h) hlaw
  · rintro s rfl
    exact ⟨.nil _, .inl ⟨[], .nil, rfl⟩⟩
  · intro s m s' hinv hok hstep
    exact hinv.step hlaw hok.1 hok.2 hstep

end Runs

end QueryFlux.Lib
