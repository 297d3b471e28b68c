import Overseer.Proofs.TwinJobs

set_option autoImplicit false

/-! # As if alone

What an operation comes to when nobody else does anything depends on the state and on how its child
processes behave, one after the other (`Prog.alone`). A job among others comes to the same, if the
workspaces keep apart: `Outset.accord` says that each job can count on its own part of the state
while it waits, and that it is in step with the same job on its own. -/

namespace Overseer

/-! ## Nobody else -/

/-- What a child process does, without the calls that the behaviour is meant for, and without the
time that it takes. -/
def Behaviour.bare (b : Behaviour) : Behaviour :=
  { b with command := none, cwd := none, held := false }

/-- Child processes behave the same, one after the other, as far as there are any. -/
def Behaviour.Agree (ds ds' : List Behaviour) : Prop :=
  ∀ (k : Nat) (b b' : Behaviour), ds[k]? = some b → ds'[k]? = some b' → b.bare = b'.bare

theorem Behaviour.Agree.of_cons {b b' : Behaviour} {ds ds' : List Behaviour}
    (h : Agree (b :: ds) (b' :: ds')) : b.bare = b'.bare ∧ Agree ds ds' :=
  ⟨h 0 b b' rfl rfl, fun k c c' hc hc' => h (k + 1) c c' hc hc'⟩

namespace Prog

variable {α : Type}

/-- The result of an operation, and the state that it leaves, if nobody else does anything and its
child processes behave in given ways, one after the other. -/
def alone : Prog α → List Behaviour → State → Option (α × State)
  | done a, _, s => some (a, s)
  | read k, ds, s => (k s).alone ds s
  | write s' k, ds, _ => k.alone ds s'
  | spawn _ _, [], _ => none
  | spawn c k, b :: ds, s =>
    match b.fault? with
    | some e => (k (.error e)).alone ds s
    | none => (k (.ok (b.ended c))).alone ds (s.finished b)
  | sleep _ k, ds, s => k.alone ds s
  | lock _ k, ds, s => k.alone ds s
  | unlock _ k, ds, s => k.alone ds s
  | gather _ _, _, _ => none

/-- Child processes that behave the same lead to the same. -/
theorem alone_of_agree {p : Prog α} {ds ds' : List Behaviour} {s : State} {x x' : α × State}
    (hx : p.alone ds s = some x) (hx' : p.alone ds' s = some x')
    (hagree : Behaviour.Agree ds ds') : x = x' := by
  induction p generalizing ds ds' s with
  | done a => exact Option.some.inj (hx.symm.trans hx')
  | read k ih => exact ih s hx hx' hagree
  | write s' k ih => exact ih hx hx' hagree
  | spawn c k ih =>
    cases ds with
    | nil => exact absurd hx (by simp [alone])
    | cons b ds =>
      cases ds' with
      | nil => exact absurd hx' (by simp [alone])
      | cons b' ds' =>
        obtain ⟨hbare, hrest⟩ := hagree.of_cons
        -- fault, answer and effect of a process can be read off its bare behaviour
        have hfault : b.bare.fault? = b'.bare.fault? := by rw [hbare]
        have hended : b.bare.ended c = b'.bare.ended c := by rw [hbare]
        have hfinished : s.finished b.bare = s.finished b'.bare := by rw [hbare]
        replace hfault : b.fault? = b'.fault? := hfault
        replace hended : b.ended c = b'.ended c := hended
        replace hfinished : s.finished b = s.finished b' := hfinished
        rw [alone] at hx hx'
        rw [← hfault, ← hended, ← hfinished] at hx'
        split at hx
        · next e he =>
          rw [he] at hx'
          exact ih _ hx hx' hrest
        · next he =>
          rw [he] at hx'
          exact ih _ hx hx' hrest
  | sleep ms k ih => exact ih hx hx' hagree
  | lock l k ih => exact ih hx hx' hagree
  | unlock l k ih => exact ih hx hx' hagree
  | gather jobs k ih => exact absurd hx (by simp [alone])

end Prog

/-! ## In step -/

namespace Outset

variable {O : Outset}

/-- The registration that a job of a batch is about. -/
def number? (O : Outset) (batch : Nat) : TaskId → Option Nat
  | .job b index => if b = batch then O.state.registered[index]? else none
  | .host _ => none

theorem number?_eq_some_iff {batch : Nat} {i : TaskId} {n : Nat} :
    O.number? batch i = some n ↔
      ∃ index, i = .job batch index ∧ O.state.registered[index]? = some n := by
  cases i with
  | host step => simp [number?]
  | job b index =>
    rw [number?]
    split
    · next hb =>
      subst hb
      simp
    · next hb => simp [hb]

theorem mem_of_number? {batch : Nat} {i : TaskId} {n : Nat} (hn : O.number? batch i = some n) :
    n ∈ O.state.registered := by
  obtain ⟨index, -, hindex⟩ := number?_eq_some_iff.1 hn
  exact List.mem_of_getElem? hindex

/-- Every registered workspace has one job in a batch. -/
theorem eq_of_number? (hs : O.state.Coherent) {batch : Nat} {i j : TaskId} {n : Nat}
    (hi : O.number? batch i = some n) (hj : O.number? batch j = some n) : i = j := by
  obtain ⟨index, rfl, hindex⟩ := number?_eq_some_iff.1 hi
  obtain ⟨index', rfl, hindex'⟩ := number?_eq_some_iff.1 hj
  have hlt := (List.getElem?_eq_some_iff.1 hindex).1
  rw [(List.getElem?_inj hlt hs.nodup_keys_registered.of_map).1 (hindex.trans hindex'.symm)]

/-- The rest of a job on a registration is in step with the rest of the same job on its own, which
goes on from the state in which all jobs are started. -/
def InStep (O : Outset) (n : Nat) (p₀ p : Prog (Except Fault CheckResult)) (ds : List Behaviour)
    (s : State) : Prop :=
  ∃ p' σ, p.Twins O n (Prog.Same O n none (O.Names n)) p' s σ ∧
    ∀ rest, p₀.alone (ds ++ rest) O.state = p'.alone rest σ

namespace InStep

variable {n : Nat} {p₀ : Prog (Except Fault CheckResult)} {ds : List Behaviour} {s : State}

theorem read {k : State → Prog (Except Fault CheckResult)} (h : O.InStep n p₀ (.read k) ds s) :
    O.InStep n p₀ (k s) ds s := by
  obtain ⟨p', σ, htwins, halone⟩ := h
  cases p' with
  | read k' => exact ⟨k' σ, σ, htwins, halone⟩
  | _ => exact absurd htwins id

theorem write {s' : State} {k : Prog (Except Fault CheckResult)}
    (h : O.InStep n p₀ (.write s' k) ds s) :
    O.Leaves (some n) s s' ∧ O.InStep n p₀ k ds s' := by
  obtain ⟨p', σ, htwins, halone⟩ := h
  cases p' with
  | write σ' k' => exact ⟨htwins.1, k', σ', htwins.2, halone⟩
  | _ => exact absurd htwins id

section Spawn

variable {c : Call} {k : Except Fault Ended → Prog (Except Fault CheckResult)} {b : Behaviour}

theorem refused {e : Fault} (h : O.InStep n p₀ (.spawn c k) ds s) (he : b.fault? = some e) :
    O.InStep n p₀ (k (.error e)) (ds ++ [b]) s := by
  obtain ⟨p', σ, htwins, halone⟩ := h
  cases p' with
  | spawn c' k' =>
    obtain ⟨rfl, hrefused, -⟩ := htwins
    refine ⟨k' (.error e), σ, hrefused e, fun rest => ?_⟩
    rw [List.append_assoc, halone, List.singleton_append, Prog.alone, he]
  | _ => exact absurd htwins id

theorem answered {s₁ s₂ : State} (h : O.InStep n p₀ (.spawn c k) ds s) (hb : O.acts n b)
    (he : b.fault? = none) (h₁ : O.Amid s₁) (hs₁ : O.Stays n s s₁) (h₂ : O.Amid s₂)
    (hs₂ : O.Stays n (s₁.finished b) s₂) :
    O.InStep n p₀ (k (.ok (b.ended c))) (ds ++ [b]) s₂ := by
  obtain ⟨p', σ, htwins, halone⟩ := h
  cases p' with
  | spawn c' k' =>
    obtain ⟨rfl, -, hended⟩ := htwins
    refine ⟨k' (.ok (b.ended c)), σ.finished b, hended b hb s₁ s₂ h₁ hs₁ h₂ hs₂, fun rest => ?_⟩
    rw [List.append_assoc, halone, List.singleton_append, Prog.alone, he]
  | _ => exact absurd htwins id

end Spawn

theorem slept {ms : Int} {k : Prog (Except Fault CheckResult)} {s₁ : State}
    (h : O.InStep n p₀ (.sleep ms k) ds s) (h₁ : O.Amid s₁) (hs₁ : O.Stays n s s₁) :
    O.InStep n p₀ k ds s₁ := by
  obtain ⟨p', σ, htwins, halone⟩ := h
  cases p' with
  | sleep ms' k' => exact ⟨k', σ, htwins s₁ h₁ hs₁, halone⟩
  | _ => exact absurd htwins id

theorem entered {l : Nat} {k : Prog (Except Fault CheckResult)} {s₁ : State}
    (h : O.InStep n p₀ (.lock l k) ds s) (h₁ : O.Amid s₁) (hs₁ : O.Stays n s s₁) :
    O.InStep n p₀ k ds s₁ := by
  obtain ⟨p', σ, htwins, halone⟩ := h
  cases p' with
  | lock l' k' => exact ⟨k', σ, htwins s₁ h₁ hs₁, halone⟩
  | _ => exact absurd htwins id

theorem left {l : Nat} {k : Prog (Except Fault CheckResult)}
    (h : O.InStep n p₀ (.unlock l k) ds s) : O.InStep n p₀ k ds s := by
  obtain ⟨p', σ, htwins, halone⟩ := h
  cases p' with
  | unlock l' k' => exact ⟨k', σ, htwins, halone⟩
  | _ => exact absurd htwins id

theorem not_gather {jobs : List Job}
    {k : List (Except Fault CheckResult) → Prog (Except Fault CheckResult)} :
    ¬ O.InStep n p₀ (.gather jobs k) ds s := by
  rintro ⟨p', σ, htwins, -⟩
  cases p' <;> exact htwins

/-- Whoever ends in step ends with what the job comes to on its own, in a state that is the same
for the workspace. -/
theorem done {r : Except Fault CheckResult} (h : O.InStep n p₀ (.done r) ds s) :
    ∃ σ, p₀.alone ds O.state = some (r, σ) ∧ (∀ a, r = .ok a → O.Names n a) ∧
      O.Twin n none s σ := by
  obtain ⟨p', σ, htwins, halone⟩ := h
  cases p' with
  | done r' =>
    obtain ⟨rfl, hnames, htwin⟩ := htwins
    refine ⟨σ, ?_, hnames, htwin⟩
    rw [← List.append_nil ds, halone, Prog.alone]
  | _ => exact absurd htwins id

end InStep

end Outset

/-! ## Nothing that matters -/

namespace Prog

variable {α β : Type} {O : Outset}

/-- The rest of an operation leaves all workspaces as they are, and ends. -/
def Mild (O : Outset) (Q : α → State → Prop) : Prog α → State → Prop
  | done a, s => Q a s
  | read k, s => (k s).Mild O Q s
  | write s' k, s => O.Leaves none s s' ∧ k.Mild O Q s'
  | _, _ => False

theorem Mild.bind {p : Prog α} {f : α → Prog β} {Q : β → State → Prop} {s : State}
    (hp : p.Mild O (fun a s => (f a).Mild O Q s) s) : (p.bind f).Mild O Q s := by
  induction p generalizing s with
  | done a => exact hp
  | read k ih => exact ih s hp
  | write s' k ih => exact ⟨hp.1, ih hp.2⟩
  | _ => exact absurd hp id

theorem Mild.mono {p : Prog α} {Q Q' : α → State → Prop} {s : State} (hp : p.Mild O Q s)
    (hQ : ∀ a s, Q a s → Q' a s) : p.Mild O Q' s := by
  induction p generalizing s with
  | done a => exact hQ a s hp
  | read k ih => exact ih s hp
  | write s' k ih => exact ⟨hp.1, ih hp.2⟩
  | _ => exact absurd hp id

end Prog

namespace Outset

variable {O : Outset}

/-! ## The accord -/

/-- What the report says for a registration. -/
def noted (O : Outset) (n : Nat) : Except Fault CheckResult → CheckResult
  | .ok r => r
  | .error _ => { workspace := O.state.key n, ok := false }

/-- The report on the results of the jobs. -/
def report (O : Outset) (rs : List (Except Fault CheckResult)) : BatchReport :=
  ⟨(O.state.registered.zip rs).map fun x => O.noted x.1 x.2⟩

/-- What is left to do of a job of the batch, or of the operation that has started the batch. -/
inductive Rest (O : Outset) (job : Nat → Job) (batch : Nat)
    (G : List (Except Fault CheckResult) → Prop) :
    TaskId → Task Reply → List Behaviour → State → Prop
  | job {index n : Nat} {t : Task Reply} {p : Prog (Except Fault CheckResult)}
    {ds : List Behaviour} {s : State} (hindex : O.state.registered[index]? = some n)
    (ht : t = p.bind fun r => .done (.job batch index r))
    (hp : O.InStep n (job n).operation.run p ds s) : Rest O job batch G (.job batch index) t ds s
  | host {step : Nat} {t : Task Reply} {ds : List Behaviour} {s : State}
    (ht : t.Mild O (fun f _ => ∃ rs, G rs ∧ f = .host step (.ok (.report (O.report rs)))) s) :
    Rest O job batch G (.host step) t ds s

namespace Rest

variable {job : Nat → Job} {batch : Nat} {G : List (Except Fault CheckResult) → Prop} {i : TaskId}
  {ds : List Behaviour} {s : State}

theorem read {k : State → Task Reply} (h : O.Rest job batch G i (.read k) ds s) :
    O.Rest job batch G i (k s) ds s := by
  cases h with
  | job hindex ht hp =>
    rename_i p
    cases p with
    | read k' =>
      cases ht
      exact .job hindex rfl hp.read
    | _ => exact absurd ht (by simp [Prog.bind])
  | host ht => exact .host ht

theorem write {s' : State} {t : Task Reply} (h : O.Rest job batch G i (.write s' t) ds s) :
    O.Leaves (O.number? batch i) s s' ∧ O.Rest job batch G i t ds s' := by
  cases h with
  | job hindex ht hp =>
    rename_i index n p
    cases p with
    | write σ k =>
      cases ht
      obtain ⟨hleaves, hp⟩ := hp.write
      rw [number?_eq_some_iff.2 ⟨index, rfl, hindex⟩]
      exact ⟨hleaves, .job hindex rfl hp⟩
    | _ => exact absurd ht (by simp [Prog.bind])
  | host ht => exact ⟨ht.1, .host ht.2⟩

/-- Only jobs start child processes. -/
theorem spawn {c : Call} {k : Except Fault Ended → Task Reply} {b : Behaviour}
    (h : O.Rest job batch G i (.spawn c k) ds s) :
    ∃ n, O.number? batch i = some n ∧
      (∀ e, b.fault? = some e → O.Rest job batch G i (k (.error e)) (ds ++ [b]) s) ∧
      ∀ s₁ s₂, O.acts n b → b.fault? = none → O.Amid s₁ → O.Stays n s s₁ → O.Amid s₂ →
        O.Stays n (s₁.finished b) s₂ →
        O.Rest job batch G i (k (.ok (b.ended c))) (ds ++ [b]) s₂ := by
  cases h with
  | job hindex ht hp =>
    rename_i index n p
    cases p with
    | spawn c k =>
      cases ht
      exact ⟨n, number?_eq_some_iff.2 ⟨index, rfl, hindex⟩,
        fun e he => .job hindex rfl (hp.refused he),
        fun s₁ s₂ hb he h₁ hs₁ h₂ hs₂ => .job hindex rfl (hp.answered hb he h₁ hs₁ h₂ hs₂)⟩
    | _ => exact absurd ht (by simp [Prog.bind])
  | host ht => exact absurd ht id

theorem sleep {ms : Int} {t : Task Reply} {s₁ : State}
    (h : O.Rest job batch G i (.sleep ms t) ds s) (h₁ : O.Amid s₁)
    (hs₁ : ∀ n, O.number? batch i = some n → O.Stays n s s₁) :
    O.Rest job batch G i t ds s₁ := by
  cases h with
  | job hindex ht hp =>
    rename_i index n p
    cases p with
    | sleep ms k =>
      cases ht
      exact .job hindex rfl (hp.slept h₁ (hs₁ n (number?_eq_some_iff.2 ⟨index, rfl, hindex⟩)))
    | _ => exact absurd ht (by simp [Prog.bind])
  | host ht => exact absurd ht id

theorem lock {l : Nat} {t : Task Reply} {s₁ : State}
    (h : O.Rest job batch G i (.lock l t) ds s) (h₁ : O.Amid s₁)
    (hs₁ : ∀ n, O.number? batch i = some n → O.Stays n s s₁) :
    O.Rest job batch G i t ds s₁ := by
  cases h with
  | job hindex ht hp =>
    rename_i index n p
    cases p with
    | lock l k =>
      cases ht
      exact .job hindex rfl (hp.entered h₁ (hs₁ n (number?_eq_some_iff.2 ⟨index, rfl, hindex⟩)))
    | _ => exact absurd ht (by simp [Prog.bind])
  | host ht => exact absurd ht id

theorem unlock {l : Nat} {t : Task Reply} (h : O.Rest job batch G i (.unlock l t) ds s) :
    O.Rest job batch G i t ds s := by
  cases h with
  | job hindex ht hp =>
    rename_i p
    cases p with
    | unlock l k =>
      cases ht
      exact .job hindex rfl hp.left
    | _ => exact absurd ht (by simp [Prog.bind])
  | host ht => exact absurd ht id

theorem not_gather {jobs : List Job} {k : List (Except Fault CheckResult) → Task Reply} :
    ¬ O.Rest job batch G i (.gather jobs k) ds s := by
  rintro (⟨hindex, ht, hp⟩ | ht)
  · rename_i p
    cases p with
    | gather jobs k => exact hp.not_gather
    | _ => exact absurd ht (by simp [Prog.bind])
  · exact ht

/-- A job ends with what it comes to on its own. -/
theorem done {batch' index n : Nat} {f : Finished Reply}
    (hindex : O.state.registered[index]? = some n)
    (h : O.Rest job batch G (.job batch' index) (.done f) ds s) :
    ∃ r σ, f = .job batch' index r ∧ (job n).operation.run.alone ds O.state = some (r, σ) ∧
      (∀ a, r = .ok a → O.Names n a) ∧ O.Twin n none s σ := by
  cases h with
  | job hindex' ht hp =>
    rename_i p
    cases hindex.symm.trans hindex'
    cases p with
    | done r =>
      cases ht
      obtain ⟨σ, halone, hnames, htwin⟩ := hp.done
      exact ⟨r, σ, rfl, halone, hnames, htwin⟩
    | _ => exact absurd ht (by simp [Prog.bind])

/-- The operation that has started the batch ends with the report on it. -/
theorem reports {step : Nat} {f : Finished Reply}
    (h : O.Rest job batch G (.host step) (.done f) ds s) :
    ∃ rs, G rs ∧ f = .host step (.ok (.report (O.report rs))) := by
  cases h with
  | host ht => exact ht

end Rest

section Accord

variable (hO : O.Apart) (hs : O.state.Coherent) (job : Nat → Job) (batch : Nat)
  (G : List (Except Fault CheckResult) → Prop)
include hO hs

/-- While it waits, everybody counts on a state that jobs may bring about, and a job counts on its
own part of it. -/
def accord : Accord where
  rely i s s' := O.Amid s → O.Amid s' ∧ ∀ n, O.number? batch i = some n → O.Stays n s s'
  deals i b := ∃ n, O.number? batch i = some n ∧ O.acts n b
  gives n rs := n = batch → G rs
  goesOn i t h ds s := O.Amid s ∧ O.Leaves (O.number? batch i) h.start s ∧
    O.Rest job batch G i t ds s
  rely_refl i s h := ⟨h, fun n _ => .refl s⟩
  rely_trans h h' hs := by
    obtain ⟨hs', hstays⟩ := h hs
    obtain ⟨hs'', hstays'⟩ := h' hs'
    exact ⟨hs'', fun n hn => (hstays n hn).trans (hstays' n hn)⟩
  rely_finished s := by
    rintro ⟨n, hn, hb⟩ hji h
    obtain ⟨h', hstays⟩ := leaves_doing hO (mem_of_number? hn) (d := .ends _) hb h
    exact ⟨h', fun m hm => hstays m (mem_of_number? hm) fun hnm =>
      hji (eq_of_number? hs hm (Option.some.inj hnm ▸ hn))⟩
  pause := by
    rintro i t h d s ⟨-, hleaves, -⟩ - j hji hstart
    obtain ⟨h', hstays⟩ := hleaves hstart
    exact ⟨h', fun m hm => hstays m (mem_of_number? hm) fun hi => hji (eq_of_number? hs hm hi)⟩
  read h := ⟨h.1, h.2.1, h.2.2.read⟩
  write := by
    rintro i s' k h d s ⟨hamid, hleaves, hrest⟩
    obtain ⟨hleaves', hrest⟩ := hrest.write
    exact ⟨(hleaves' hamid).1, hleaves.trans hleaves', hrest⟩
  refused := by
    rintro i call k h d s b e ⟨hamid, -, hrest⟩ - he
    obtain ⟨n, -, hrefused, -⟩ := hrest.spawn (b := b)
    exact ⟨hamid, .refl s, hrefused e he⟩
  answered := by
    rintro i call k h d s b ⟨hamid, -, hrest⟩ ⟨n, hn, hb⟩ he s₁ s₂ - hrely₁ - hrely₂
    obtain ⟨n', hn', -, hanswered⟩ := hrest.spawn (b := b)
    obtain rfl := Option.some.inj (hn.symm.trans hn')
    obtain ⟨h₁, hs₁⟩ := hrely₁ hamid
    obtain ⟨h₂, hs₂⟩ := hrely₂ (leaves_doing hO (mem_of_number? hn) (d := .ends b) hb h₁).1
    exact ⟨h₂, .refl s₂, hanswered s₁ s₂ hb he h₁ (hs₁ n hn) h₂ (hs₂ n hn)⟩
  slept := by
    rintro i ms k h d s ⟨hamid, -, hrest⟩ s₁ - hrely
    obtain ⟨h₁, hs₁⟩ := hrely hamid
    exact ⟨h₁, .refl s₁, hrest.sleep h₁ hs₁⟩
  entered := by
    rintro i l k h d s ⟨hamid, -, hrest⟩ s₁ s₂ - hrely
    obtain ⟨h₂, hs₂⟩ := hrely hamid
    exact ⟨h₂, .refl s₂, hrest.lock h₂ hs₂⟩
  left h := ⟨h.1, h.2.1, h.2.2.unlock⟩
  gathered h := absurd h.2.2 Rest.not_gather
  jobs h := absurd h.2.2 Rest.not_gather

end Accord

end Outset

end Overseer
