import Overseer.Retry

set_option autoImplicit false

/-! # What happens in a retried operation

An operation that is retried asks four things of its surroundings (`Undertaking`): an attempt, a
line in the log, a recovery from a fault, a pause. Each of them may do anything and come to
anything, in any monad. All that is asked for and what comes of it can be written down on the way
(`Undertaking.recorded`), and nothing else changes by that (`Recording`).

What is written down is a course (`Course`): rounds of an attempt with a fault to be retried, a
note, one recovery and one pause, and then the attempt whose result is that of the operation, unless
the recovery from its fault fails. Written as a loop, the operation never gets behind the loop
(`loopOver_range'`). -/

namespace Overseer

namespace Retry

/-- The faults of some classes and of their special cases. -/
def ofClasses (caught : List FaultClass) (e : Fault) : Bool := caught.any e.cls.isA

variable {m : Type → Type} {α β γ : Type}

/-! ## Operations with their surroundings -/

/-- Something to be attempted, and what is needed between two attempts at it. -/
structure Undertaking (m : Type → Type) (α : Type) where
  /-- The attempt with a number. -/
  attempt : Nat → m (Except Fault α)
  log : String → m Unit
  recover : Option (Fault → m (Except Fault Unit))
  sleep : Int → m Unit

/-- What was asked for in an undertaking, and what came of it. -/
inductive Event (α : Type) where
  | attempted (number : Nat) (result : Except Fault α)
  | noted (text : String)
  | recovered (e : Fault) (result : Except Fault Unit)
  | slept (delay : Int)

/-- Do something, then write it down. -/
def record [Monad m] (x : m β) (event : β → Event α) : StateT (List (Event α)) m β := do
  let b ← x
  modify (· ++ [event b])
  return b

namespace Undertaking

/-- The same undertaking, with all that is asked for written down. -/
def recorded [Monad m] (u : Undertaking m α) : Undertaking (StateT (List (Event α)) m) α where
  attempt number := record (u.attempt number) (.attempted number)
  log text := record (u.log text) fun () => .noted text
  recover := u.recover.map fun f e => record (f e) (.recovered e)
  sleep delay := record (u.sleep delay) fun () => .slept delay

variable [Monad m] (u : Undertaking m α) (bound : Int) (retries : Fault → Bool) (delay : Int)

/-- What is done between two attempts. -/
def between : Nat → Fault → m (Except Fault Unit) :=
  pause u.log u.recover u.sleep bound delay

/-- Attempts up to a bound. -/
def bounded : m (Except Fault α) :=
  Retry.bounded bound retries u.attempt (u.between bound delay)

/-- Attempts in a loop over their numbers, and something else behind the loop. -/
def loopOver (behind : m (Except Fault α)) (numbers : List Nat) : m (Except Fault α) := do
  for number in numbers do
    match ← u.attempt number with
    | .ok a => return .ok a
    | .error e =>
      unless retries e do
        return .error e
      if number = bound then
        return .error e
      match ← u.between bound delay number e with
      | .ok () => pure ()
      | .error e => return .error e
  behind

end Undertaking

/-! ## The loop -/

section Loop

variable [Monad m] [LawfulMonad m] (u : Undertaking m α) {bound : Int} (retries : Fault → Bool)
  (delay : Int) (behind : m (Except Fault α))

theorem loopOver_cons (number : Nat) (numbers : List Nat) :
    u.loopOver bound retries delay behind (number :: numbers) = do
      match ← u.attempt number with
      | .ok a => return .ok a
      | .error e =>
        if retries e then
          if number = bound then return .error e
          match ← u.between bound delay number e with
          | .ok () => u.loopOver bound retries delay behind numbers
          | .error e => return .error e
        else return .error e := by
  simp only [Undertaking.loopOver, List.forIn_cons, bind_assoc]
  refine bind_congr fun r => ?_
  cases r with
  | ok a => simp
  | error e =>
    cases hretries : retries e with
    | false => simp [hretries]
    | true =>
      by_cases hlast : number = bound
      · simp [hretries, hlast]
      · simp only [hretries, hlast, if_true, if_false, bind_assoc]
        refine bind_congr fun r => ?_
        cases r <;> simp

/-- The loop is left by the attempt with the number of the bound at the latest. -/
theorem loopOver_range' {left first : Nat} (h : first + left = bound) :
    u.loopOver bound retries delay behind (List.range' first (left + 1)) =
      attemptsFrom retries u.attempt (u.between bound delay) left first := by
  induction left generalizing first with
  | zero =>
    have hlast : (first : Int) = bound := by simpa using h
    rw [List.range'_succ, loopOver_cons, attemptsFrom]
    -- whatever comes of the last attempt is the result
    refine .trans (bind_congr fun r => ?_) (bind_pure (u.attempt first))
    cases r <;> simp [hlast]
  | succ left ih =>
    have hnext : ((first + 1 : Nat) : Int) + left = bound := by omega
    have hlast : ¬ (first : Int) = bound := by omega
    rw [List.range'_succ, loopOver_cons, attemptsFrom]
    refine bind_congr fun r => ?_
    cases r with
    | ok a => rfl
    | error e =>
      cases hretries : retries e with
      | false => simp [hretries]
      | true =>
        simp only [hretries, if_true, hlast, if_false]
        refine bind_congr fun r => ?_
        cases r with
        | ok _ => exact ih hnext
        | error e' => rfl

end Loop

/-! ## Records -/

/-- All that a program gives has a property: the program may as well give it with the proof. -/
def Gives [Functor m] (p : β → Prop) (x : m β) : Prop := ∃ y : m {b // p b}, Subtype.val <$> y = x

section Gives

variable [Monad m] [LawfulMonad m] {p p' : β → Prop}

theorem Gives.of_pure {b : β} (h : p b) : Gives p (pure b : m β) := ⟨pure ⟨b, h⟩, by simp⟩

theorem Gives.of_map {f : γ → β} (h : ∀ c, p (f c)) (x : m γ) : Gives p (f <$> x) :=
  ⟨(fun c => ⟨f c, h c⟩) <$> x, by simp⟩

theorem Gives.imp {x : m β} (h : Gives p x) (himp : ∀ b, p b → p' b) : Gives p' x := by
  obtain ⟨y, rfl⟩ := h
  exact ⟨(fun b => ⟨b.1, himp b.1 b.2⟩) <$> y, by simp⟩

theorem Gives.bind {q : γ → Prop} {x : m γ} {f : γ → m β} (hx : Gives q x)
    (hf : ∀ c, q c → Gives p (f c)) : Gives p (x >>= f) := by
  obtain ⟨y, rfl⟩ := hx
  -- each result comes with what it needs for the rest to come with a proof
  refine ⟨y >>= fun c => (hf c.1 c.2).choose, ?_⟩
  rw [map_bind, bind_map_left]
  exact bind_congr fun c => (hf c.1 c.2).choose_spec

end Gives

/-- The first program is the second one with a record: whatever has been recorded before, it does
and gives the same, and whenever it gives something, that goes with what it has added to the
record. -/
structure Recording [Monad m] (Q : List (Event α) → β → Prop) (x : StateT (List (Event α)) m β)
    (y : m β) : Prop where
  same : ∀ before, Prod.fst <$> x.run before = y
  adds : ∀ before, Gives (fun o => ∃ events, o.2 = before ++ events ∧ Q events o.1) (x.run before)

section Recording

variable [Monad m] [LawfulMonad m] {Q Q' : List (Event α) → β → Prop}

theorem run_record (x : m β) (event : β → Event α) (before : List (Event α)) :
    (record x event).run before = (fun b => (b, before ++ [event b])) <$> x := by
  simp [record]

theorem recording_record {x : m β} {event : β → Event α} (h : ∀ b, Q [event b] b) :
    Recording Q (record x event) x where
  same before := by simp [run_record]
  adds before := by
    rw [run_record]
    exact .of_map (fun b => ⟨[event b], rfl, h b⟩) x

theorem recording_pure {b : β} (h : Q [] b) : Recording (m := m) Q (pure b) (pure b) where
  same before := by rw [StateT.run_pure, map_pure]
  adds before := by
    rw [StateT.run_pure]
    exact .of_pure ⟨[], by rw [List.append_nil], h⟩

theorem Recording.mono {x : StateT (List (Event α)) m β} {y : m β} (h : Recording Q x y)
    (hQ : ∀ events b, Q events b → Q' events b) : Recording Q' x y where
  same := h.same
  adds before := (h.adds before).imp fun _ ⟨events, ho, hb⟩ => ⟨events, ho, hQ events _ hb⟩

theorem Recording.bind {P : List (Event α) → γ → Prop} {x : StateT (List (Event α)) m γ} {y : m γ}
    {f : γ → StateT (List (Event α)) m β} {g : γ → m β} (hx : Recording P x y)
    (hf : ∀ events c, P events c → Recording (fun more => Q (events ++ more)) (f c) (g c)) :
    Recording Q (x >>= f) (y >>= g) where
  same before := by
    -- what follows is only known to be the same behind what the first part can have added
    obtain ⟨added, hadded⟩ := hx.adds before
    rw [StateT.run_bind, ← hx.same before, ← hadded]
    simp only [map_bind, bind_map_left]
    refine bind_congr ?_
    rintro ⟨⟨c, after⟩, events, -, hc⟩
    exact (hf events c hc).same after
  adds before := by
    rw [StateT.run_bind]
    refine (hx.adds before).bind ?_
    rintro ⟨c, _⟩ ⟨events, rfl, hc⟩
    refine ((hf events c hc).adds (before ++ events)).imp ?_
    rintro o ⟨more, ho, hb⟩
    exact ⟨events ++ more, by rw [ho, List.append_assoc], hb⟩

end Recording

/-! ## Courses -/

section Course

variable (bound delay : Int) (retries : Fault → Bool) (recovers : Bool)

/-- The events between two attempts. -/
def respite (number : Nat) (e : Fault) : List (Event α) :=
  .noted (note number bound e) :: ((if recovers then [.recovered e (.ok ())] else []) ++
    if delay ≠ 0 then [.slept delay] else [])

/-- The events of attempts with faults, numbered from a first one on, each with what follows it
before the next attempt. -/
def rounds (first : Nat) (faults : List Fault) : List (Event α) :=
  (faults.zipIdx first).flatMap fun (e, number) =>
    .attempted number (.error e) :: respite bound delay recovers number e

/-- What comes of the time between two attempts: the next attempt, or a fault of the recovery. -/
inductive Respite (number : Nat) (e : Fault) : List (Event α) → Except Fault Unit → Prop where
  | rested : Respite number e (respite bound delay recovers number e) (.ok ())
  | failed (e' : Fault) (recovering : recovers = true) : Respite number e
      [.noted (note number bound e), .recovered e (.error e')] (.error e')

/-- What comes of attempts from a first one on. The faults are those of all attempts but the
last. -/
inductive Course (first : Nat) : List (Event α) → Except Fault α → Prop where
  /-- The last attempt has a result that is not retried, or the number of the bound. -/
  | settled (faults : List Fault) (r : Except Fault α)
      (retried : ∀ e ∈ faults, retries e = true)
      (allowed : first + faults.length ≤ bound)
      (settles : ∀ e, r = .error e → retries e = true → first + faults.length = bound) :
      Course first
        (rounds bound delay recovers first faults ++ [.attempted (first + faults.length) r]) r
  /-- The recovery from the fault of the last attempt fails. -/
  | broken (faults : List Fault) (e e' : Fault)
      (retried : ∀ e' ∈ faults ++ [e], retries e' = true)
      (allowed : first + faults.length < bound) (recovering : recovers = true) :
      Course first (rounds bound delay recovers first faults ++
        [.attempted (first + faults.length) (.error e),
          .noted (note (first + faults.length) bound e), .recovered e (.error e')]) (.error e')

variable {bound delay retries recovers} {first : Nat} {events : List (Event α)} {e : Fault}
  {r : Except Fault α}

theorem rounds_cons (faults : List Fault) :
    rounds (α := α) bound delay recovers first (e :: faults) =
      .attempted first (.error e) :: (respite bound delay recovers first e ++
        rounds bound delay recovers (first + 1) faults) := by
  simp [rounds]

/-- A course of one attempt. -/
theorem Course.one (allowed : first ≤ bound)
    (settles : ∀ e, r = .error e → retries e = true → first = bound) :
    Course bound delay retries recovers first [.attempted first r] r :=
  .settled [] r (by simp) (by simpa using allowed) (by simpa using settles)

/-- A round in front of a course. -/
theorem Course.cons (hretries : retries e = true)
    (h : Course bound delay retries recovers (first + 1) events r) :
    Course bound delay retries recovers first
      (.attempted first (.error e) :: (respite bound delay recovers first e ++ events)) r := by
  have hnumber : ∀ faults : List Fault,
      first + 1 + faults.length = first + (e :: faults).length := by
    intro faults
    rw [List.length_cons]
    omega
  have hretried : ∀ faults : List Fault, (∀ e ∈ faults, retries e = true) →
      ∀ e' ∈ e :: faults, retries e' = true :=
    fun faults h => List.forall_mem_cons.2 ⟨hretries, h⟩
  cases h with
  | settled faults r retried allowed settles =>
    rw [← List.append_assoc, ← List.cons_append, ← rounds_cons, hnumber faults]
    exact .settled (e :: faults) r (hretried faults retried) (by grind) (by grind)
  | broken faults e' e'' retried allowed recovering =>
    rw [← List.append_assoc, ← List.cons_append, ← rounds_cons, hnumber faults]
    exact .broken (e :: faults) e' e'' (hretried _ retried) (by grind) recovering

end Course

/-! ## What is recorded -/

section Recorded

variable [Monad m] [LawfulMonad m] (u : Undertaking m α) {bound : Int} (delay : Int)
  (retries : Fault → Bool)

theorem recording_sleep :
    Recording (fun events (r : Except Fault Unit) =>
        r = .ok () ∧ events = if delay ≠ 0 then [.slept delay] else [])
      (if delay ≠ 0 then do u.recorded.sleep delay; return .ok () else return .ok ())
      (if delay ≠ 0 then do u.sleep delay; return .ok () else return .ok ()) := by
  split
  · refine .bind (P := fun events _ => events = [.slept delay])
      (recording_record fun _ => rfl) ?_
    rintro _ _ rfl
    exact recording_pure ⟨rfl, rfl⟩
  · exact recording_pure ⟨rfl, rfl⟩

theorem recording_between (number : Nat) (e : Fault) :
    Recording (Respite bound delay u.recover.isSome number e)
      (u.recorded.between bound delay number e) (u.between bound delay number e) := by
  unfold Undertaking.between pause
  refine .bind (P := fun events _ => events = [.noted (note number bound e)])
    (recording_record fun _ => rfl) ?_
  rintro _ _ rfl
  cases hrecover : u.recover with
  | none =>
    have hrecorded : u.recorded.recover = none := by simp [Undertaking.recorded, hrecover]
    simp only [hrecorded, pure_bind]
    refine (recording_sleep u delay).mono ?_
    rintro _ _ ⟨rfl, rfl⟩
    exact .rested
  | some f =>
    have hrecorded : u.recorded.recover = some fun e => record (f e) (.recovered e) := by
      simp [Undertaking.recorded, hrecover]
    simp only [hrecorded]
    refine .bind (P := fun events r => events = [.recovered e r])
      (recording_record fun _ => rfl) ?_
    rintro _ r rfl
    cases r with
    | error e' => exact recording_pure (.failed e' rfl)
    | ok _ =>
      refine (recording_sleep u delay).mono ?_
      rintro _ _ ⟨rfl, rfl⟩
      exact .rested

theorem recording_attemptsFrom {left first : Nat} (h : first + left = bound) :
    Recording (Course bound delay retries u.recover.isSome first)
      (attemptsFrom retries u.recorded.attempt (u.recorded.between bound delay) left first)
      (attemptsFrom retries u.attempt (u.between bound delay) left first) := by
  induction left generalizing first with
  | zero =>
    simp only [attemptsFrom]
    exact recording_record fun r => .one (by omega) fun _ _ _ => by omega
  | succ left ih =>
    have hnext : ((first + 1 : Nat) : Int) + left = bound := by omega
    simp only [attemptsFrom]
    refine .bind (P := fun events r => events = [.attempted first r])
      (recording_record fun _ => rfl) ?_
    rintro _ r rfl
    cases r with
    | ok a => exact recording_pure (.one (by omega) (by simp))
    | error e =>
      cases hretries : retries e with
      | false =>
        simp only [hretries]
        refine recording_pure (.one (by omega) ?_)
        rintro _ ⟨⟩ hretried
        exact absurd (hretries.symm.trans hretried) (by simp)
      | true =>
        simp only [hretries, if_true]
        refine .bind (recording_between u delay first e) ?_
        intro events r hrespite
        cases hrespite with
        -- all that happens later is added behind this round
        | rested => exact (ih hnext).mono fun events r hcourse => hcourse.cons hretries
        | failed e' recovering =>
          exact recording_pure (.broken [] e e' (by simpa using hretries) (by grind) recovering)

/-- Attempts up to a bound of at least one follow a course that begins with attempt one, whatever
the attempts and the recoveries do and come to, and whatever is retried. As a loop over the numbers
up to the bound they never get behind the loop. -/
theorem bounded_follows_course (hbound : 1 ≤ bound) :
    (∀ behind, u.loopOver bound retries delay behind (List.range' 1 bound.toNat) =
      u.bounded bound retries delay) ∧
    Recording (Course bound delay retries u.recover.isSome 1)
      (u.recorded.bounded bound retries delay) (u.bounded bound retries delay) := by
  have hbounded : ∀ {m : Type → Type} [Monad m] (u : Undertaking m α),
      u.bounded bound retries delay =
        attemptsFrom retries u.attempt (u.between bound delay) (bound - 1).toNat 1 :=
    fun u => if_neg (by omega)
  have hnumbers : bound.toNat = (bound - 1).toNat + 1 := by omega
  have hfirst : ((1 : Nat) : Int) + (bound - 1).toNat = bound := by omega
  rw [hbounded, hbounded, hnumbers]
  exact ⟨fun behind => loopOver_range' u retries delay behind hfirst,
    recording_attemptsFrom u delay retries hfirst⟩

end Recorded

/-- An undertaking that lacks an entry at first and a file afterwards, and cannot do without the
file. -/
def doomed : Undertaking Id Nat where
  attempt
    | 1 => .error (.foreign .key "entry")
    | _ => .error (.foreign .fileNotFound "file")
  log _ := ()
  recover := some fun e => if e.cls = .key then .ok () else .error (.foreign .runtime "doom")
  sleep _ := ()

/-- Two of three attempts are made, with a pause between them. -/
theorem bounded_follows_course_when_doomed :
    (1 : Int) ≤ 3 ∧
      (∀ behind, doomed.loopOver 3 (ofClasses [.lookup, .os]) 5 behind [1, 2, 3] =
        .error (.foreign .runtime "doom")) ∧
      (doomed.recorded.bounded 3 (ofClasses [.lookup, .os]) 5).run [] =
        (.error (.foreign .runtime "doom"),
          [.attempted 1 (.error (.foreign .key "entry")),
            .noted "Attempt 1/3 failed (KeyError), retrying",
            .recovered (.foreign .key "entry") (.ok ()),
            .slept 5,
            .attempted 2 (.error (.foreign .fileNotFound "file")),
            .noted "Attempt 2/3 failed (FileNotFoundError), retrying",
            .recovered (.foreign .fileNotFound "file") (.error (.foreign .runtime "doom"))]) ∧
      Course 3 5 (ofClasses [.lookup, .os]) true 1
        ((doomed.recorded.bounded 3 (ofClasses [.lookup, .os]) 5).run []).2
        (doomed.bounded 3 (ofClasses [.lookup, .os]) 5) := by
  obtain ⟨hloop, hrecording⟩ :=
    bounded_follows_course doomed 5 (ofClasses [.lookup, .os]) (by decide : (1 : Int) ≤ 3)
  refine ⟨by decide, fun behind => (hloop behind).trans rfl, rfl, ?_⟩
  obtain ⟨⟨_, events, hevents, hcourse⟩, rfl⟩ := hrecording.adds []
  rw [List.nil_append] at hevents
  rw [hevents, ← hrecording.same []]
  exact hcourse

end Retry

end Overseer
