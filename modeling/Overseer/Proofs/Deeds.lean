import Mathlib.Data.List.Nodup
import Overseer.Proofs.FileChanges
import Overseer.Session.Scheduler

set_option autoImplicit false

/-! # What an operation does

Once it is said how child processes behave, an operation that takes no locks and starts no jobs
has one course. `Prog.play` follows it and writes down what others can see of it: the processes
that are started, and the places in the file tree that are empty after a change by the program
and were not before. Sequences are taken apart by `Op.plays_bind`; for each basic step there is
one equation. A session in which child processes behave as a script says follows the course
(`Session.drainWithin_host_of_play`). -/

namespace Overseer

/-- Something an operation did that others can see. -/
inductive Deed where
  /-- A child process was started and came back. -/
  | started (d : Dealing)
  /-- Nothing stands at these places any more. -/
  | lost (places : List Files.Location)

/-- How child processes behave, and what happens while the operation waits. -/
structure Children where
  /-- What comes back from a process that is started after some deeds in some state, and the state
  by then, to which others may have contributed. -/
  answer : List Deed → State → Call → Except Fault Ended × State
  /-- The state at the end of a pause that begins after some deeds in some state. -/
  pause : List Deed → State → Int → State := fun _ s _ => s

/-- Child processes only come back, and nobody else does anything meanwhile. -/
structure Children.Quiet (children : Children) : Prop where
  answer : ∀ ds s c, (children.answer ds s c).2 = s
  pause : ∀ ds s ms, children.pause ds s ms = s

/-- The places at which something stands in the first tree and nothing in the second. -/
def Files.Tree.lost (t t' : Files.Tree) : List Files.Location :=
  t.nodes.keys.filter fun l => (t'.at? l).isNone

/-- What others see of a change of the state. -/
def Deed.ofWrite (s s' : State) : List Deed :=
  match s.world.files.lost s'.world.files with
  | [] => []
  | places => [.lost places]

namespace Files.Tree

variable {R : List UInt8 → List UInt8 → Prop} {t t' t'' : Tree}

theorem at?_of_mem_keys {l : Location} (h : l ∈ t.nodes.keys) : ∃ n, t.at? l = some n := by
  unfold at?
  split
  · exact ⟨_, rfl⟩
  · cases hget : t.nodes.get? l with
    | some n => exact ⟨n, rfl⟩
    | none => exact absurd h ((Assoc.get?_eq_none_iff _ _).1 hget)

theorem lost_eq_nil (h : t.Within R t') : t.lost t' = [] := by
  unfold lost
  rw [List.filter_eq_nil_iff]
  intro l hl
  obtain ⟨n, hn⟩ := at?_of_mem_keys hl
  obtain ⟨n', hn', -⟩ := h.nodes l n hn
  simp [hn']

theorem ne_root {place : Location} {n : Node} (hat : t.at? place = some n)
    (hn : n ≠ .directory) : place ≠ [] := by
  rintro rfl
  exact hn (by simpa [at?] using hat.symm)

/-- Where a file or link was removed nothing stands. -/
theorem at?_remove_self {place : Location} {n : Node} (hat : t.at? place = some n)
    (hn : n ≠ .directory) : (t.remove place).at? place = none := by
  simp [at?, remove, ne_root hat hn, Assoc.get?_erase]

/-- Removing a file or link makes its place empty, and no other. -/
theorem lost_remove {place : Location} {n : Node} (hat : t.at? place = some n)
    (hn : n ≠ .directory) : t.lost (t.remove place) = [place] := by
  have hplace := ne_root hat hn
  have hmem : place ∈ t.nodes.keys := by
    have hget : t.nodes.get? place = some n := by simpa [at?, hplace] using hat
    by_contra hnot
    rw [(Assoc.get?_eq_none_iff _ _).2 hnot] at hget
    exact absurd hget (by simp)
  have htest : ∀ l ∈ t.nodes.keys, ((t.remove place).at? l).isNone = decide (l = place) := by
    intro l hl
    obtain ⟨n', hn'⟩ := at?_of_mem_keys hl
    by_cases hl' : l = place
    · subst hl'
      simp [at?_remove_self hat hn]
    · have hkept : (t.remove place).at? l = t.at? l := by
        simp [at?, remove, Assoc.get?_erase, hl']
      simp [hkept, hn', hl']
  -- no place stands twice in the tree, so one is left
  have honce : t.nodes.keys.count place = 1 := List.count_eq_one_of_mem t.nodes.nodup hmem
  unfold lost
  rw [List.filter_congr htest, List.filter_eq, honce]
  rfl

/-- What is written to files afterwards does not matter. -/
theorem lost_congr {R' : List UInt8 → List UInt8 → Prop} (h : t'.Within R t'')
    (h' : t''.Within R' t') : t.lost t'' = t.lost t' := by
  unfold lost
  apply List.filter_congr
  intro l _
  cases hat : t'.at? l with
  | some n =>
    obtain ⟨n', hn', -⟩ := h.nodes l n hat
    rw [hn']
    rfl
  | none =>
    cases hat' : t''.at? l with
    | none => rfl
    | some n =>
      obtain ⟨n', hn', -⟩ := h'.nodes l n hat'
      rw [hat] at hn'
      exact absurd hn' (by simp)

end Files.Tree

namespace Deed

theorem ofWrite_eq_nil {R : List UInt8 → List UInt8 → Prop} {s s' : State}
    (h : s.world.files.Within R s'.world.files) : ofWrite s s' = [] := by
  rw [ofWrite, Files.Tree.lost_eq_nil h]

end Deed

namespace Prog

variable {α β : Type} {children : Children}

/-- The course of an operation with given child processes. -/
def play (children : Children) : Prog α → List Deed → State → Option (α × List Deed × State)
  | done a, ds, s => some (a, ds, s)
  | read k, ds, s => (k s).play children ds s
  | write s' k, ds, s => k.play children (ds ++ Deed.ofWrite s s') s'
  | spawn c k, ds, s =>
    (k (children.answer ds s c).1).play children
      (ds ++ [.started ⟨c, s, (children.answer ds s c).1⟩]) (children.answer ds s c).2
  | sleep ms k, ds, s => k.play children ds (children.pause ds s ms)
  | lock _ _, _, _ => none
  | unlock _ _, _, _ => none
  | gather _ _, _, _ => none

/-- An operation ends with a result, deeds and a state of some kind. -/
def Plays (children : Children) (Q : α → List Deed → State → Prop) (p : Prog α) (ds : List Deed)
    (s : State) : Prop :=
  ∃ a ds' s', p.play children ds s = some (a, ds', s') ∧ Q a ds' s'

variable {Q : β → List Deed → State → Prop} {ds : List Deed} {s : State}

theorem plays_done (children : Children) (Q : α → List Deed → State → Prop) (a : α) :
    (done a).Plays children Q ds s ↔ Q a ds s := by
  constructor
  · rintro ⟨a', ds', s', hplay, hQ⟩
    cases hplay
    exact hQ
  · exact fun hQ => ⟨a, ds, s, rfl, hQ⟩

theorem plays_bind (p : Prog α) (f : α → Prog β) :
    (p.bind f).Plays children Q ds s ↔
      p.Plays children (fun a ds s => (f a).Plays children Q ds s) ds s := by
  induction p generalizing ds s with
  | done a => rw [bind, plays_done]
  | read k ih => exact ih s
  | write s' k ih => exact ih
  | spawn c k ih => exact ih _
  | sleep ms k ih => exact ih
  -- what waits for a lock or for jobs has no course, and neither has anything behind it
  | lock l k ih => simp [bind, Plays, play]
  | unlock l k ih => simp [bind, Plays, play]
  | gather jobs k ih => simp [bind, Plays, play]

theorem plays_seq (p : Prog α) (f : α → Prog β) :
    (p >>= f).Plays children Q ds s ↔
      p.Plays children (fun a ds s => (f a).Plays children Q ds s) ds s :=
  plays_bind p f

theorem plays_return (Q : α → List Deed → State → Prop) (a : α) :
    (pure a : Prog α).Plays children Q ds s ↔ Q a ds s := plays_done children Q a

theorem Plays.mono {p : Prog α} {Q Q' : α → List Deed → State → Prop}
    (h : p.Plays children Q ds s) (hQ : ∀ a ds s, Q a ds s → Q' a ds s) :
    p.Plays children Q' ds s := by
  obtain ⟨a, ds', s', hplay, hQ'⟩ := h
  exact ⟨a, ds', s', hplay, hQ a ds' s' hQ'⟩

end Prog

namespace Op

variable {α β : Type} {children : Children} {ds : List Deed} {s : State}

/-- An operation that may stop with a fault ends with a result, deeds and a state of some kind. -/
def Plays (children : Children) (Q : Except Fault α → List Deed → State → Prop) (p : Op α)
    (ds : List Deed) (s : State) : Prop :=
  p.run.Plays children Q ds s

/-- What is wanted behind the first part of a sequence: a fault ends the sequence. -/
def Then (children : Children) (f : α → Op β) (Q : Except Fault β → List Deed → State → Prop) :
    Except Fault α → List Deed → State → Prop
  | .ok a, ds, s => (f a).Plays children Q ds s
  | .error e, ds, s => Q (.error e) ds s

@[simp] theorem then_ok (f : α → Op β) (Q : Except Fault β → List Deed → State → Prop) (a : α) :
    Then children f Q (.ok a) ds s ↔ (f a).Plays children Q ds s := Iff.rfl

@[simp] theorem then_error (f : α → Op β) (Q : Except Fault β → List Deed → State → Prop)
    (e : Fault) : Then children f Q (.error e) ds s ↔ Q (.error e) ds s := Iff.rfl

theorem plays_bind (x : Op α) (f : α → Op β) (Q : Except Fault β → List Deed → State → Prop) :
    (x >>= f).Plays children Q ds s ↔ x.Plays children (Then children f Q) ds s := by
  have hrun : (x >>= f).run = x.run.bind (ExceptT.bindCont f) := rfl
  rw [Plays, hrun, Prog.plays_bind, Plays]
  have hthen : (fun r ds s => (ExceptT.bindCont f r).Plays children Q ds s) =
      Then children f Q := by
    funext r ds s
    cases r with
    | ok a => rfl
    | error e => exact propext (Prog.plays_done children Q (.error e))
  rw [hthen]

theorem plays_iff_run (p : Op α) (Q : Except Fault α → List Deed → State → Prop) :
    p.Plays children Q ds s ↔ p.run.Plays children Q ds s := Iff.rfl

theorem Plays.mono {p : Op α} {Q Q' : Except Fault α → List Deed → State → Prop}
    (h : p.Plays children Q ds s) (hQ : ∀ r ds s, Q r ds s → Q' r ds s) :
    p.Plays children Q' ds s :=
  Prog.Plays.mono h hQ

/-! ## Basic steps -/

variable {Q : Except Fault α → List Deed → State → Prop}

@[simp] theorem plays_pure (a : α) : (pure a : Op α).Plays children Q ds s ↔ Q (.ok a) ds s :=
  Prog.plays_done children Q (.ok a)

@[simp] theorem plays_throw (e : Fault) :
    (throw e : Op α).Plays children Q ds s ↔ Q (.error e) ds s :=
  Prog.plays_done children Q (.error e)

@[simp] theorem plays_state (Q : Except Fault State → List Deed → State → Prop) :
    state.Plays children Q ds s ↔ Q (.ok s) ds s :=
  Prog.plays_done children Q (.ok s)

theorem plays_modify (f : State → State) (Q : Except Fault Unit → List Deed → State → Prop) :
    (modify f).Plays children Q ds s ↔ Q (.ok ()) (ds ++ Deed.ofWrite s (f s)) (f s) :=
  Prog.plays_done children Q (.ok ())

@[simp] theorem plays_log (level : LogLevel) (source : LogSource) (text : String)
    (Q : Except Fault Unit → List Deed → State → Prop) :
    (log level source text).Plays children Q ds s ↔
      Q (.ok ()) ds (s.record ⟨level, source, text⟩) := by
  have hnone : Deed.ofWrite s (s.record ⟨level, source, text⟩) = [] :=
    Deed.ofWrite_eq_nil (World.appended_record s.world _).longer
  rw [log, plays_modify, hnone, List.append_nil]

@[simp] theorem plays_workspace (n : Nat) (Q : Except Fault Workspace → List Deed → State → Prop) :
    (workspace n).Plays children Q ds s ↔ Q (.ok (s.workspace n)) ds s :=
  Prog.plays_done children Q (.ok (s.workspace n))

@[simp] theorem plays_look (f : World → Except Fault α) :
    (look f).Plays children Q ds s ↔ Q (f s.world) ds s := by
  rw [look, plays_bind, plays_state, then_ok]
  cases f s.world with
  | ok a => exact plays_pure a
  | error e => exact plays_throw e

theorem plays_act (a : Act α) :
    (act a).Plays children Q ds s ↔
      Q (a.exec s.world).1 (ds ++ Deed.ofWrite s { s with world := (a.exec s.world).2 })
        { s with world := (a.exec s.world).2 } := by
  rw [act, plays_bind, plays_state, then_ok, plays_bind, plays_modify, then_ok]
  cases (a.exec s.world).1 with
  | ok a => exact plays_pure a
  | error e => exact plays_throw e

@[simp] theorem plays_spawn (c : Call) (Q : Except Fault Ended → List Deed → State → Prop) :
    (spawn c).Plays children Q ds s ↔
      Q (children.answer ds s c).1 (ds ++ [.started ⟨c, s, (children.answer ds s c).1⟩])
        (children.answer ds s c).2 :=
  Prog.plays_done children Q (children.answer ds s c).1

/-- A pause is written down before it begins, and nothing is lost by that. -/
@[simp] theorem plays_sleep (ms : Int) (Q : Except Fault Unit → List Deed → State → Prop) :
    (sleep ms).Plays children Q ds s ↔
      Q (.ok ()) ds (children.pause ds (s.slept ms) ms) := by
  have hnone : Deed.ofWrite s (s.slept ms) = [] :=
    Deed.ofWrite_eq_nil (World.Appended.refl s.world).longer
  rw [sleep, plays_bind, plays_modify, hnone, List.append_nil, then_ok]
  exact Prog.plays_done children Q (.ok ())

theorem plays_attempt (p : Op α) (Q : Except Fault (Except Fault α) → List Deed → State → Prop) :
    (attempt p).Plays children Q ds s ↔
      p.Plays children (fun r ds s => Q (.ok r) ds s) ds s := by
  have hdone : ∀ r ds s, (Prog.done (Except.ok r : Except Fault (Except Fault α))).Plays children
      Q ds s ↔ Q (.ok r) ds s := fun r ds s => Prog.plays_done children Q (.ok r)
  show Prog.Plays children Q (p.run.bind fun r => .done (.ok r)) ds s ↔ _
  simp only [Prog.plays_bind, hdone, Plays]

-- operations are taken apart by the equations above, never by following them
attribute [irreducible] Plays Then

end Op

/-! ## Sessions -/

/-- The call of a process that was started. -/
def Deed.call? : Deed → Option Call
  | .started d => some d.call
  | .lost _ => none

/-- What is left of a script after some deeds. -/
def Deed.scriptAfter (script : List Behaviour) (ds : List Deed) : List Behaviour :=
  (ds.filterMap call?).foldl (fun script c => (Behaviour.take c script).2) script

/-- Child processes that behave as a script says. -/
def Children.ofScript (script : List Behaviour) : Children where
  answer ds s c :=
    let b := (Behaviour.take c (Deed.scriptAfter script ds)).1
    match b.fault? with
    | some fault => (.error fault, s)
    | none => (.ok (b.ended c), { s with world := b.finish s.world })

theorem Deed.filterMap_call?_ofWrite (s s' : State) : (ofWrite s s').filterMap call? = [] := by
  unfold ofWrite
  split <;> rfl

namespace Behaviour

theorem take_released (c : Call) {script : List Behaviour} (h : ∀ b ∈ script, b.held = false) :
    (take c script).1.held = false ∧ ∀ b ∈ (take c script).2, b.held = false := by
  induction script with
  | nil => exact ⟨rfl, by simp [take]⟩
  | cons b rest ih =>
    obtain ⟨hb, hrest⟩ := List.forall_mem_cons.1 h
    unfold take
    split
    · exact ⟨hb, hrest⟩
    · exact ⟨(ih hrest).1, List.forall_mem_cons.2 ⟨hb, (ih hrest).2⟩⟩

end Behaviour

namespace Session

variable {ρ : Type}

/-- An operation that has just begun to pause is woken first if no other pauses. -/
theorem drainWithin_lieDown {session : Session ρ} (hasleep : session.asleep = Assoc.empty)
    (n : Nat) (t : Task ρ) :
    drainWithin (n + 1) (session.lieDown t) =
      drainWithin n (run t { session with pauses := session.pauses + 1 }) := by
  have hkeys : (session.lieDown t).asleep.keys = [session.pauses] := by
    rw [lieDown, hasleep]
    rfl
  have hback : ((Assoc.empty : Assoc Nat (Task ρ)).insert session.pauses t).erase session.pauses =
      Assoc.empty := by
    simp [Assoc.insert, Assoc.erase, Assoc.filterKeys, Assoc.empty, Assoc.keys]
  rw [drainWithin, hkeys]
  dsimp only
  rw [wake, lieDown, hasleep, Assoc.get?_insert, if_pos rfl]
  dsimp only
  rw [hback, ← hasleep]

/-- The state, the script and the calls of a session follow the course once the operation has
been woken from its pauses, as long as no process has to be let go. -/
theorem drainWithin_of_play (script : List Behaviour) (calls : List Call) (p : Task ρ)
    {session : Session ρ} {ds ds' : List Deed} {f : Finished ρ} {s' : State}
    (hscript : session.script = Deed.scriptAfter script ds)
    (hcalls : session.calls = calls ++ ds.filterMap Deed.call?)
    (hheld : ∀ b ∈ session.script, b.held = false) (hasleep : session.asleep = Assoc.empty)
    (hplay : p.play (.ofScript script) ds session.state = some (f, ds', s')) :
    ∃ n, drainWithin n (run p session) = finish { session with
      state := s'
      script := Deed.scriptAfter script ds'
      calls := calls ++ ds'.filterMap Deed.call?
      pauses := session.pauses + n } f := by
  induction p generalizing session ds with
  | done a =>
    cases hplay
    exact ⟨0, by rw [run, drainWithin, ← hscript, ← hcalls]; rfl⟩
  | read k ih =>
    rw [run]
    exact ih session.state hscript hcalls hheld hasleep hplay
  | write s₁ k ih =>
    rw [run]
    have hsame : (ds ++ Deed.ofWrite session.state s₁).filterMap Deed.call? =
        ds.filterMap Deed.call? := by
      rw [List.filterMap_append, Deed.filterMap_call?_ofWrite, List.append_nil]
    refine @ih { session with state := s₁ } _ ?_ ?_ hheld hasleep hplay
    · rw [Deed.scriptAfter, hsame]
      exact hscript
    · rw [hsame]
      exact hcalls
  | spawn c k ih =>
    have hreleased := Behaviour.take_released c hheld
    have hcalled : ∀ d : Dealing, (ds ++ [Deed.started d]).filterMap Deed.call? =
        ds.filterMap Deed.call? ++ [d.call] := fun d => by simp [Deed.call?]
    -- the process takes its behaviour from the script, in the session as in the course
    have hchild : (Children.ofScript script).answer ds session.state c =
        match (Behaviour.take c session.script).1.fault? with
        | some fault => (.error fault, session.state)
        | none => (.ok ((Behaviour.take c session.script).1.ended c), { session.state with
            world := (Behaviour.take c session.script).1.finish session.state.world }) := by
      rw [hscript]
      rfl
    rw [Prog.play, hchild] at hplay
    rw [run]
    generalize htaken : Behaviour.take c session.script = taken at *
    obtain ⟨b, rest⟩ := taken
    have hrest : ∀ d : Dealing, d.call = c →
        rest = Deed.scriptAfter script (ds ++ [.started d]) := by
      intro d hd
      rw [Deed.scriptAfter, hcalled, List.foldl_append, hd, ← Deed.scriptAfter, ← hscript]
      simp [htaken]
    have hcalls' : ∀ d : Dealing, d.call = c → session.calls ++ [c] =
        calls ++ (ds ++ [Deed.started d]).filterMap Deed.call? := by
      rintro d rfl
      rw [hcalled, ← List.append_assoc, hcalls]
    dsimp only at hplay hreleased ⊢
    cases hfault : b.fault? with
    | some fault =>
      simp only [hfault] at hplay ⊢
      exact @ih _ { session with script := rest, calls := session.calls ++ [c] } _
        (hrest _ rfl) (hcalls' _ rfl) hreleased.2 hasleep hplay
    | none =>
      simp only [hfault] at hplay ⊢
      rw [hreleased.1, if_neg (by simp)]
      exact @ih _ { session with
          script := rest
          calls := session.calls ++ [c]
          state := { session.state with world := b.finish session.state.world } } _
        (hrest _ rfl) (hcalls' _ rfl) hreleased.2 hasleep hplay
  | sleep ms k ih =>
    obtain ⟨n, hn⟩ := @ih { session with pauses := session.pauses + 1 } _ hscript hcalls hheld
      hasleep hplay
    refine ⟨n + 1, ?_⟩
    rw [run, drainWithin_lieDown hasleep, hn, Nat.add_right_comm, Nat.add_assoc]
  | lock l k ih => exact absurd hplay nofun
  | unlock l k ih => exact absurd hplay nofun
  | gather jobs k ih => exact absurd hplay nofun

/-- What the host asks for takes its course in a session in which nobody else pauses: the
processes that are started are those of the course, and so is the result. -/
theorem drainWithin_host_of_play {session : Session ρ}
    (hheld : ∀ b ∈ session.script, b.held = false) (hasleep : session.asleep = Assoc.empty)
    (step : Nat) {op : Op ρ} {r : Except Fault ρ} {ds : List Deed} {s' : State}
    (hplay : op.run.play (.ofScript session.script) [] session.state = some (r, ds, s')) :
    ∃ n, drainWithin n (run (op.run.bind fun r => .done (.host step r)) session) = { session with
      state := s'
      script := Deed.scriptAfter session.script ds
      calls := session.calls ++ ds.filterMap Deed.call?
      pauses := session.pauses + n
      finished := session.finished ++ [(step, r)] } := by
  have hplays : (op.run.bind fun r => .done (Finished.host step r)).Plays
      (.ofScript session.script) (fun f ds₁ s₁ => f = Finished.host step r ∧ ds₁ = ds ∧ s₁ = s')
      [] session.state := by
    rw [Prog.plays_bind]
    exact ⟨r, ds, s', hplay, (Prog.plays_done _ _ _).2 ⟨rfl, rfl, rfl⟩⟩
  obtain ⟨_, _, _, hplay', rfl, rfl, rfl⟩ := hplays
  exact drainWithin_of_play session.script session.calls _ rfl (by simp) hheld hasleep hplay'

end Session

end Overseer
