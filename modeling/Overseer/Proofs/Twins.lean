import Overseer.Proofs.Apartness

set_option autoImplicit false

/-! # Two runs side by side

A job on a workspace is compared with the same job on its own. Two states are twins for a
registration if a job on it cannot tell them apart (`Outset.Twin`): it finds the same handle, the
same collection and the same world, though handles and locks may have other numbers. Two programs
are twins if they take the same steps from twin states, and each may be told the same by a child
process (`Prog.Twins`). On the left others may do what they like in the meantime, as long as they
keep to their own workspaces; on the right there is nobody else.

Operations are compared by `Op.Paired`, with a rule for each basic step and one for sequences. -/

namespace Overseer

/-! ## Twin states -/

/-- Two states that a job on a registration cannot tell apart. It may have looked up its handle,
which has got a number of its own in each of the states. -/
structure Outset.Twin (O : Outset) (n : Nat) (ids : Option (Nat × Nat)) (s σ : State) : Prop where
  left : O.Amid s
  right : O.Amid σ
  handle : (s.handleOf.get? (O.state.key n)).map s.handle =
    (σ.handleOf.get? (O.state.key n)).map σ.handle
  lock : (s.lockOf.get? (O.state.key n)).isSome = (σ.lockOf.get? (O.state.key n)).isSome
  collection : ∀ id, O.state.store.current.get? (O.state.key n) = some id →
    s.store.at? id = σ.store.at? id
  world : O.Alike n σ.world s.world
  onFile : ∀ p ∈ ids, s.handleOf.get? (O.state.key n) = some p.1 ∧
    σ.handleOf.get? (O.state.key n) = some p.2 ∧
    ∀ configured, (O.state.workspace n).statusFile O.state.world = .ok configured →
      State.Suits configured (s.handle p.1)

namespace Outset

variable {O : Outset} {n : Nat} {ids : Option (Nat × Nat)} {s s' σ : State}

theorem Amid.statusFile (hs : O.Amid s) :
    (O.state.workspace n).statusFile s.world = (O.state.workspace n).statusFile O.state.world :=
  Workspace.path?_of_environment hs.environment _

/-- A job that has looked up its handle may forget it. -/
theorem Twin.weaken {ids' : Option (Nat × Nat)} (h : O.Twin n ids s σ)
    (hids : ids' = none ∨ ids' = ids) : O.Twin n ids' s σ := by
  refine { h with onFile := fun p hp => ?_ }
  rcases hids with rfl | rfl
  · exact absurd hp (by simp)
  · exact h.onFile p hp

/-- The handle that has been looked up is the same in both states. -/
theorem Twin.handle_eq {id id' : Nat} (h : O.Twin n (some (id, id')) s σ) :
    s.handle id = σ.handle id' := by
  obtain ⟨hid, hid', -⟩ := h.onFile _ rfl
  have hhandle := h.handle
  rw [hid, hid'] at hhandle
  exact Option.some.inj hhandle

theorem Twin.uses {id id' : Nat} (hn : n ∈ O.state.registered)
    (h : O.Twin n (some (id, id')) s σ) : O.Uses n (s.handle id) :=
  h.left.uses n hn id (h.onFile _ rfl).1

/-- Others have done something on the left. -/
theorem Twin.stays (h : O.Twin n ids s σ) (hs' : O.Amid s') (hstays : O.Stays n s s')
    (hcurrent : n ∈ O.state.registered) : O.Twin n ids s' σ where
  left := hs'
  right := h.right
  handle := by
    rw [hstays.handleOf, ← h.handle]
    refine Option.map_congr fun id hid => hstays.handle id hid
  lock := by rw [hstays.lockOf, h.lock]
  collection id hid := by
    obtain ⟨id', c, hid', hcurrent, -⟩ := h.left.current n hcurrent
    obtain rfl := Option.some.inj (hid'.symm.trans hid)
    rw [hstays.collection id' hcurrent, h.collection id' hid]
  world := h.world.trans hstays.world
  onFile p hp := by
    obtain ⟨hleft, hright, hsuits⟩ := h.onFile p hp
    refine ⟨hstays.handleOf.trans hleft, hright, fun configured hconfigured => ?_⟩
    rw [hstays.handle _ hleft]
    exact hsuits configured hconfigured

/-- A result is about a registration. -/
def Names (O : Outset) (n : Nat) (r : CheckResult) : Prop := r.workspace = O.state.key n

/-- A registration takes part in jobs that keep apart. -/
structure TakesPart (O : Outset) (n : Nat) : Prop where
  apart : O.Apart
  coherent : O.state.Coherent
  registered : n ∈ O.state.registered

/-! ### Changes on both sides -/

/-- A job changes twin states into twin states, and leaves all others as they were. -/
def Steps (O : Outset) (n : Nat) (ids : Option (Nat × Nat)) (s s' σ' : State) : Prop :=
  O.Leaves (some n) s s' ∧ O.Twin n ids s' σ'

theorem Twin.steps_aside (h : O.Twin n ids s σ) (notices notices' : List Notice)
    (sleeps sleeps' : List Int) :
    O.Steps n ids s { s with notices, sleeps }
      { σ with notices := notices', sleeps := sleeps' } :=
  ⟨leaves_aside s notices sleeps, { h with
    left := ((leaves_aside s notices sleeps : O.Leaves (some n) _ _) h.left).1
    right := ((leaves_aside σ notices' sleeps' : O.Leaves (some n) _ _) h.right).1 }⟩

section Changes

variable (hn : O.TakesPart n) (h : O.Twin n ids s σ)
include hn h

theorem Twin.steps_doing {d : Doing} (hd : O.Does n d) :
    O.Steps n ids s { s with world := d.after s.world } { σ with world := d.after σ.world } := by
  have hleaves : ∀ s, O.Leaves (some n) s { s with world := d.after s.world } := fun _ =>
    leaves_doing hn.apart hn.registered hd
  exact ⟨hleaves s, { h with
    left := (hleaves s h.left).1
    right := (hleaves σ h.right).1
    world := h.world.after hd }⟩

theorem Twin.steps_records (rs : List LogRecord) :
    O.Steps n ids s { s with world := rs.foldl World.record s.world }
      { σ with world := rs.foldl World.record σ.world } := by
  induction rs generalizing s σ with
  | nil => exact ⟨.refl s, h⟩
  | cons r rs ih =>
    obtain ⟨hleaves, htwin⟩ := h.steps_doing hn (d := .line r) trivial
    obtain ⟨hleaves', htwin'⟩ := ih htwin
    exact ⟨hleaves.trans hleaves', htwin'⟩

theorem Twin.steps_lock (l l' count count' : Nat) :
    O.Steps n ids s
      { s with lockOf := s.lockOf.insert (O.state.key n) l, lockCount := count }
      { σ with lockOf := σ.lockOf.insert (O.state.key n) l', lockCount := count' } := by
  have hleaves : ∀ s l count, O.Leaves (some n) s
      { s with lockOf := s.lockOf.insert (O.state.key n) l, lockCount := count } := fun _ l count =>
    leaves_lock hn.coherent hn.registered l count
  exact ⟨hleaves s l count, { h with
    left := (hleaves s l count h.left).1
    right := (hleaves σ l' count' h.right).1
    lock := by simp only [Assoc.get?_insert, if_true, Option.isSome_some] }⟩

theorem Twin.steps_withChange {id : Nat}
    (hid : O.state.store.current.get? (O.state.key n) = some id)
    {f : Collection → Collection × Delta} (hf : ∀ c, (f c).1.workspace = c.workspace) :
    O.Steps n ids s (s.withChange id f) (σ.withChange id f) := by
  have hleaves : ∀ s, O.Leaves (some n) s (s.withChange id f) := fun _ =>
    leaves_withChange hn.coherent hn.registered hn.apart hid hf
  obtain ⟨id', c, hid', -, hc, -⟩ := h.left.current n hn.registered
  obtain rfl := Option.some.inj (hid'.symm.trans hid)
  have hc' : σ.store.at? id' = some c := (h.collection id' hid).symm.trans hc
  have hreaction : (s.store.change id' f).2.2 = (σ.store.change id' f).2.2 := by
    simp only [Store.change, hc, hc', Store.notify, h.left.listeners, h.right.listeners]
  refine ⟨hleaves s, { h with
    left := (hleaves s h.left).1
    right := (hleaves σ h.right).1
    collection := fun id₁ hid₁ => ?_
    world := ?_ }⟩
  · obtain rfl := Option.some.inj (hid.symm.trans hid₁)
    rw [State.at?_withChange_self hc, State.at?_withChange_self hc']
  · show O.Alike n (σ.world.react (σ.store.change id' f).2.2)
      (s.world.react (s.store.change id' f).2.2)
    rw [hreaction]
    exact h.world.react _

/-- The handle that has been looked up is marked. -/
theorem Twin.steps_mark {id id' : Nat} (hids : ids = some (id, id')) (started : Bool) :
    O.Steps n ids s (s.mark id started) (σ.mark id' started) := by
  subst hids
  obtain ⟨hid, hid', hsuits⟩ := h.onFile _ rfl
  have hself : ∀ {s : State} {id}, id < s.handles.length →
      (s.mark id started).handle id = { s.handle id with started } := by
    intro s id hlt
    simp [State.handle, State.mark, State.setHandle, List.getElem?_eq_getElem hlt]
  have hleft := hself (h.left.sound.valid _ _ hid)
  have hright := hself (h.right.sound.valid _ _ hid')
  have hleaves := leaves_mark hn.coherent hn.registered hid started
  refine ⟨hleaves, { h with
    left := (hleaves h.left).1
    right := (leaves_mark hn.coherent hn.registered hid' started h.right).1
    handle := ?_
    onFile := fun p hp => ?_ }⟩
  · show (s.handleOf.get? _).map _ = (σ.handleOf.get? _).map _
    rw [hid, hid', Option.map_some, Option.map_some, hleft, hright, h.handle_eq]
  · cases hp
    exact ⟨hid, hid', fun configured hconfigured => hleft ▸ hsuits configured hconfigured⟩

/-- A new handle comes on file. -/
theorem Twin.steps_withNewHandle {handle : Handle} (hhandle : O.Uses n handle)
    (hsuits : ∀ configured, (O.state.workspace n).statusFile O.state.world = .ok configured →
      State.Suits configured handle) :
    O.Steps n (some (s.handles.length, σ.handles.length)) s
      (s.withNewHandle (O.state.key n) handle) (σ.withNewHandle (O.state.key n) handle) := by
  have hleaves : ∀ s, O.Leaves (some n) s (s.withNewHandle (O.state.key n) handle) := fun _ =>
    leaves_withNewHandle hn.coherent hn.registered hhandle
  have hentry : ∀ s : State, (s.withNewHandle (O.state.key n) handle).handleOf.get?
      (O.state.key n) = some s.handles.length := fun s => by
    rw [State.handleOf_withNewHandle, if_pos rfl]
  refine ⟨hleaves s, { h with
    left := (hleaves s h.left).1
    right := (hleaves σ h.right).1
    handle := ?_
    onFile := fun p hp => ?_ }⟩
  · rw [hentry, hentry, Option.map_some, Option.map_some, State.handle_withNewHandle_self,
      State.handle_withNewHandle_self]
  · cases hp
    refine ⟨hentry s, hentry σ, fun configured hconfigured => ?_⟩
    rw [State.handle_withNewHandle_self]
    exact hsuits configured hconfigured

end Changes

end Outset

/-! ## Twin programs -/

namespace Prog

variable {α β : Type} {O : Outset} {n : Nat}

/-- Two programs of jobs on a registration take the same steps and end as they should. -/
def Twins (O : Outset) (n : Nat) (Q : α → α → State → State → Prop) :
    Prog α → Prog α → State → State → Prop
  | done a, done a', s, σ => Q a a' s σ
  | read k, read k', s, σ => (k s).Twins O n Q (k' σ) s σ
  | write s' k, write σ' k', s, _ => O.Leaves (some n) s s' ∧ k.Twins O n Q k' s' σ'
  | spawn c k, spawn c' k', s, σ => c = c' ∧
      (∀ e, (k (.error e)).Twins O n Q (k' (.error e)) s σ) ∧
      ∀ b, O.acts n b → ∀ s₁ s₂, O.Amid s₁ → O.Stays n s s₁ → O.Amid s₂ →
        O.Stays n (s₁.finished b) s₂ →
        (k (.ok (b.ended c))).Twins O n Q (k' (.ok (b.ended c))) s₂ (σ.finished b)
  | sleep _ k, sleep _ k', s, σ | lock _ k, lock _ k', s, σ =>
    ∀ s₁, O.Amid s₁ → O.Stays n s s₁ → k.Twins O n Q k' s₁ σ
  | unlock _ k, unlock _ k', s, σ => k.Twins O n Q k' s σ
  | _, _, _, _ => False

theorem Twins.mono {p p' : Prog α} {Q Q' : α → α → State → State → Prop} {s σ : State}
    (hp : p.Twins O n Q p' s σ) (hQ : ∀ a a' s σ, Q a a' s σ → Q' a a' s σ) :
    p.Twins O n Q' p' s σ := by
  induction p generalizing p' s σ with
  | done a =>
    cases p' with
    | done a' => exact hQ a a' s σ hp
    | _ => exact hp
  | read k ih =>
    cases p' with
    | read k' => exact ih s hp
    | _ => exact hp
  | write s' k ih =>
    cases p' with
    | write σ' k' => exact ⟨hp.1, ih hp.2⟩
    | _ => exact hp
  | spawn c k ih =>
    cases p' with
    | spawn c' k' =>
      obtain ⟨hc, hrefused, hended⟩ := hp
      exact ⟨hc, fun e => ih _ (hrefused e), fun b hb s₁ s₂ h₁ hs₁ h₂ hs₂ =>
        ih _ (hended b hb s₁ s₂ h₁ hs₁ h₂ hs₂)⟩
    | _ => exact hp
  | sleep ms k ih =>
    cases p' with
    | sleep ms' k' => exact fun s₁ h₁ hs₁ => ih (hp s₁ h₁ hs₁)
    | _ => exact hp
  | lock l k ih =>
    cases p' with
    | lock l' k' => exact fun s₁ h₁ hs₁ => ih (hp s₁ h₁ hs₁)
    | _ => exact hp
  | unlock l k ih =>
    cases p' with
    | unlock l' k' => exact ih hp
    | _ => exact hp
  | gather jobs k ih => cases p' <;> exact hp

theorem Twins.bind {p p' : Prog α} {f f' : α → Prog β} {Q : β → β → State → State → Prop}
    {s σ : State} (hp : p.Twins O n (fun a a' s σ => (f a).Twins O n Q (f' a') s σ) p' s σ) :
    (p.bind f).Twins O n Q (p'.bind f') s σ := by
  induction p generalizing p' s σ with
  | done a =>
    cases p' with
    | done a' => exact hp
    | _ => exact absurd hp id
  | read k ih =>
    cases p' with
    | read k' => exact ih s hp
    | _ => exact absurd hp id
  | write s' k ih =>
    cases p' with
    | write σ' k' => exact ⟨hp.1, ih hp.2⟩
    | _ => exact absurd hp id
  | spawn c k ih =>
    cases p' with
    | spawn c' k' =>
      obtain ⟨hc, hrefused, hended⟩ := hp
      exact ⟨hc, fun e => ih _ (hrefused e), fun b hb s₁ s₂ h₁ hs₁ h₂ hs₂ =>
        ih _ (hended b hb s₁ s₂ h₁ hs₁ h₂ hs₂)⟩
    | _ => exact absurd hp id
  | sleep ms k ih =>
    cases p' with
    | sleep ms' k' => exact fun s₁ h₁ hs₁ => ih (hp s₁ h₁ hs₁)
    | _ => exact absurd hp id
  | lock l k ih =>
    cases p' with
    | lock l' k' => exact fun s₁ h₁ hs₁ => ih (hp s₁ h₁ hs₁)
    | _ => exact absurd hp id
  | unlock l k ih =>
    cases p' with
    | unlock l' k' => exact ih hp
    | _ => exact absurd hp id
  | gather jobs k ih => cases p' <;> exact absurd hp id

/-- Both programs end with the same, in twin states. -/
structure Same {α : Type} (O : Outset) (n : Nat) (ids : Option (Nat × Nat)) (P : α → Prop)
    (r r' : Except Fault α) (s σ : State) : Prop where
  eq : r = r'
  ok : ∀ a, r = .ok a → P a
  twin : O.Twin n ids s σ

/-- From twin states, two programs take the same steps and end with the same. -/
def Paired (O : Outset) (n : Nat) (ids : Option (Nat × Nat)) (P : α → Prop)
    (p p' : Prog (Except Fault α)) : Prop :=
  ∀ s σ, O.Twin n ids s σ → p.Twins O n (Same O n ids P) p' s σ

variable {ids : Option (Nat × Nat)} {P : α → Prop} {R : β → Prop}

theorem Paired.seq {p p' : Prog (Except Fault α)} {f f' : Except Fault α → Prog (Except Fault β)}
    (hp : p.Paired O n ids P p') (hok : ∀ a, P a → (f (.ok a)).Paired O n ids R (f' (.ok a)))
    (herror : ∀ e, (f (.error e)).Paired O n ids R (f' (.error e))) :
    (p >>= f).Paired O n ids R (p' >>= f') := by
  intro s σ h
  refine Twins.bind ((hp s σ h).mono fun r r' s σ hr => ?_)
  obtain ⟨rfl, hP, htwin⟩ := hr
  cases r with
  | ok a => exact hok a (hP a rfl) s σ htwin
  | error e => exact herror e s σ htwin

theorem paired_return {r : Except Fault α} (hr : ∀ a, r = .ok a → P a) :
    (pure r : Prog (Except Fault α)).Paired O n ids P (pure r) :=
  fun _ _ h => ⟨rfl, hr, h⟩

theorem Paired.mono {p p' : Prog (Except Fault α)} {P' : α → Prop} (hp : p.Paired O n ids P p')
    (hP : ∀ a, P a → P' a) : p.Paired O n ids P' p' :=
  fun s σ h => (hp s σ h).mono fun _ _ _ _ hr => ⟨hr.eq, fun a ha => hP a (hr.ok a ha), hr.twin⟩

end Prog

/-! ## Twin operations -/

namespace Op

variable {α β : Type} {O : Outset} {n : Nat} {ids : Option (Nat × Nat)} {P : α → Prop}
  {R : β → Prop}

/-- From twin states, two operations take the same steps and end with the same. -/
def Paired (O : Outset) (n : Nat) (ids : Option (Nat × Nat)) (P : α → Prop) (p p' : Op α) : Prop :=
  p.run.Paired O n ids P p'.run

theorem paired_iff_run {p p' : Op α} :
    p.Paired O n ids P p' ↔ p.run.Paired O n ids P p'.run := Iff.rfl

theorem Paired.mono {p p' : Op α} {P' : α → Prop} (hp : p.Paired O n ids P p')
    (hP : ∀ a, P a → P' a) : p.Paired O n ids P' p' := Prog.Paired.mono hp hP

theorem Paired.bind {p p' : Op α} {f f' : α → Op β} (hp : p.Paired O n ids P p')
    (hf : ∀ a, P a → (f a).Paired O n ids R (f' a)) :
    (p >>= f).Paired O n ids R (p' >>= f') :=
  show (p.run >>= ExceptT.bindCont f).Paired O n ids R (p'.run >>= ExceptT.bindCont f') from
    Prog.Paired.seq hp hf fun e =>
      Prog.paired_return (r := .error e) fun a ha => absurd ha (by simp)

theorem paired_pure {a : α} (ha : P a) : (pure a : Op α).Paired O n ids P (pure a) :=
  Prog.paired_return (r := .ok a) fun _ h => Except.ok.inj h ▸ ha

theorem paired_throw (e : Fault) : (throw e : Op α).Paired O n ids P (throw e) :=
  Prog.paired_return (r := .error e) fun a ha => absurd ha (by simp)

/-- What follows may look at the states. -/
theorem paired_state {f f' : State → Op β}
    (hf : ∀ s σ, O.Twin n ids s σ → (f s).Paired O n ids R (f' σ)) :
    (state >>= f).Paired O n ids R (state >>= f') :=
  fun s σ h => hf s σ h s σ h

theorem paired_modify {f f' : State → State}
    (hf : ∀ s σ, O.Twin n ids s σ → O.Steps n ids s (f s) (f' σ)) :
    (modify f).Paired O n ids (fun _ => True) (modify f') := fun s σ h =>
  ⟨(hf s σ h).1, ⟨rfl, fun _ _ => trivial, (hf s σ h).2⟩⟩

theorem run_look (f : World → Except Fault α) :
    (look f).run = .read fun s => .done (f s.world) := by
  rw [look]
  refine congrArg Prog.read (funext fun s => ?_)
  simp only [Prog.bind, ExceptT.bindCont]
  cases f s.world <;> rfl

theorem run_act (a : Act α) :
    (act a).run = .read fun s => .read fun s' =>
      .write { s' with world := (a.exec s.world).2 } (.done (a.exec s.world).1) := by
  rw [act]
  refine congrArg Prog.read (funext fun s => ?_)
  simp only [Prog.bind]
  show ExceptT.bindCont _ (Except.ok s) = _
  simp only [ExceptT.bindCont]
  generalize a.exec s.world = x
  obtain ⟨r, w⟩ := x
  cases r <;> rfl

theorem paired_look {f f' : World → Except Fault α}
    (hf : ∀ s σ, O.Twin n ids s σ → f s.world = f' σ.world)
    (hP : ∀ s σ, O.Twin n ids s σ → ∀ a, f s.world = .ok a → P a) :
    (look f).Paired O n ids P (look f') := by
  rw [paired_iff_run, run_look, run_look]
  exact fun s σ h => ⟨hf s σ h, hP s σ h, h⟩

theorem paired_act {a a' : Act α}
    (hf : ∀ s σ, O.Twin n ids s σ → (a.exec s.world).1 = (a'.exec σ.world).1 ∧
      O.Steps n ids s { s with world := (a.exec s.world).2 }
        { σ with world := (a'.exec σ.world).2 }) :
    (act a).Paired O n ids (fun _ => True) (act a') := by
  rw [paired_iff_run, run_act, run_act]
  intro s σ h
  obtain ⟨heq, hleaves, htwin⟩ := hf s σ h
  exact ⟨hleaves, heq, fun _ _ => trivial, htwin⟩

theorem paired_attempt {p p' : Op α} (hp : p.Paired O n ids P p') :
    (attempt p).Paired O n ids (fun r => ∀ a, r = .ok a → P a) (attempt p') := fun s σ h =>
  Prog.Twins.bind ((hp s σ h).mono fun _ _ _ _ hr =>
    ⟨congrArg Except.ok hr.eq, fun _ ha => Except.ok.inj ha ▸ hr.ok, hr.twin⟩)

theorem paired_workspace {m : Nat} :
    (workspace m).Paired O n ids (fun ws => ws = O.state.workspace m) (workspace m) := fun _ _ h =>
  ⟨congrArg Except.ok ((h.left.workspace m).trans (h.right.workspace m).symm),
    fun _ ha => (Except.ok.inj ha).symm.trans (h.left.workspace m), h⟩

theorem paired_isRemoved {m : Nat} :
    (isRemoved m).Paired O n ids (fun _ => True) (isRemoved m) := fun s σ h => by
  refine ⟨congrArg Except.ok ?_, fun _ _ => trivial, h⟩
  show (s.registration m).removed = (σ.registration m).removed
  simp only [State.registration, h.left.registrations, h.right.registrations]

section TakesPart

variable (hn : O.TakesPart n)
include hn

theorem paired_log (level : LogLevel) (source : LogSource) (text : String) :
    (log level source text).Paired O n ids (fun _ => True) (log level source text) :=
  paired_modify fun _ _ h => h.steps_records hn [⟨level, source, text⟩]

/-- A child process tells both the same; meanwhile others may have done something on the left. -/
theorem paired_spawn (c : Call) :
    (spawn c).Paired O n ids (fun e => ∃ b, O.acts n b ∧ e = b.ended c) (spawn c) := by
  intro s σ h
  refine ⟨rfl, fun e => ⟨rfl, fun _ he => absurd he (by simp), h⟩,
    fun b hb s₁ s₂ h₁ hs₁ h₂ hs₂ => ⟨rfl, fun e he => ⟨b, hb, (Except.ok.inj he).symm⟩, ?_⟩⟩
  have hended := (h.stays h₁ hs₁ hn.registered).steps_doing hn (d := .ends b) hb
  exact hended.2.stays h₂ hs₂ hn.registered

/-- During a pause others may do something on the left. -/
theorem paired_sleep (ms : Int) : (sleep ms).Paired O n ids (fun _ => True) (sleep ms) := by
  intro s σ h
  obtain ⟨hleaves, htwin⟩ :=
    h.steps_aside s.notices σ.notices (s.slept ms).sleeps (σ.slept ms).sleeps
  exact ⟨hleaves, fun s₁ h₁ hs₁ => ⟨rfl, fun _ _ => trivial, htwin.stays h₁ hs₁ hn.registered⟩⟩

theorem paired_withLock {l l' : Nat} {p p' : Op α} (hp : p.Paired O n ids P p') :
    (withLock l p).Paired O n ids P (withLock l' p') := fun _ σ h s₁ h₁ hs₁ =>
  Prog.Twins.bind (hp s₁ σ (h.stays h₁ hs₁ hn.registered))

end TakesPart

-- operations are paired by the rules above, never by running them
attribute [irreducible] Paired

end Op

end Overseer
