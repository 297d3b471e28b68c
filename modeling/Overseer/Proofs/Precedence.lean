import Overseer.Proofs.Maps
import Overseer.Settings.Layers

set_option autoImplicit false

/-! # Which item decides about a setting

Items are laid over settings one after the other, and each setting has two spellings. Whatever the
spelling, the last item about a setting decides, and a setting that no item is about stays as it was
(`follows_of_laid`). So it makes no difference whether items come in one layer or in several
(`laid_append`).

An item is laid as it is, but for lists that consist of one text and for the environment, a map
whose names and values become texts (`Becomes`). An environment that is no map is the only thing
that cannot be laid (`exists_laid_iff`). -/

namespace Overseer

/-! ## Members with the same name -/

namespace Json

/-- Entering members one after the other is what an ordered map does. -/
theorem dedup_eq_entries (members : List (String × Json)) :
    dedup members = (Assoc.ofList members).entries := by
  have hinsert : ∀ (m : Assoc String Json) (e : String × Json),
      setMember m.entries e.1 e.2 = (m.insert e.1 e.2).entries := by
    intro m e
    have hany : (m.entries.any (·.1 == e.1)) = true ↔ e.1 ∈ m.keys := by
      simp [Assoc.keys]
    unfold setMember Assoc.insert
    by_cases hkey : e.1 ∈ m.keys
    · simp [hany.2 hkey, hkey]
    · simp [mt hany.1 hkey, hkey]
  induction members using List.reverseRecOn with
  | nil => rfl
  | append_singleton members e ih =>
    have hdedup : dedup (members ++ [e]) = setMember (dedup members) e.1 e.2 := by
      simp [dedup, List.foldl_append]
    have hofList : Assoc.ofList (members ++ [e]) = (Assoc.ofList members).insert e.1 e.2 := by
      simp [Assoc.ofList, Assoc.insertAll, List.foldl_append]
    rw [hdedup, hofList, ih, hinsert]

/-- Members with pairwise different names stay as they are. -/
theorem dedup_of_nodup {members : List (String × Json)} (h : (members.map Prod.fst).Nodup) :
    dedup members = members := by
  rw [dedup_eq_entries, Assoc.entries_ofList members h]

theorem nodup_dedup (members : List (String × Json)) : ((dedup members).map Prod.fst).Nodup := by
  rw [dedup_eq_entries]
  exact (Assoc.ofList members).nodup

end Json

/-! ## Items about a setting -/

namespace Setting

/-- A key is one of the two spellings of a setting. -/
def IsKey (name : Setting) (key : String) : Prop := key = name.name ∨ key = name.spelling

instance (name : Setting) (key : String) : Decidable (name.IsKey key) :=
  inferInstanceAs (Decidable (key = name.name ∨ key = name.spelling))

/-- No key belongs to two settings. -/
theorem ofKey?_eq_some_iff (key : String) (name : Setting) :
    ofKey? key = some name ↔ name.IsKey key := by
  constructor
  · intro h
    have hfound := List.find?_some h
    rw [Bool.or_eq_true, beq_iff_eq, beq_iff_eq] at hfound
    exact hfound.symm.imp Eq.symm Eq.symm
  · rintro (rfl | rfl) <;> cases name <;> decide

/-- The values that items give to a setting, in order. -/
def given (name : Setting) (items : List (String × Json)) : List Json :=
  (items.filter fun i => name.IsKey i.1).map Prod.snd

variable {name : Setting} {items : List (String × Json)} {i : String × Json} {v x : Json}

theorem given_cons_of_isKey (h : name.IsKey i.1) :
    name.given (i :: items) = i.2 :: name.given items := by
  simp [given, h]

theorem given_cons_of_not_isKey (h : ¬ name.IsKey i.1) :
    name.given (i :: items) = name.given items := by
  simp [given, h]

theorem given_append (a b : List (String × Json)) :
    name.given (a ++ b) = name.given a ++ name.given b := by
  simp [given]

/-- An item of a list is a pair whose first component can be the key of a map. -/
def IsPair (item : Json) (p : Json × Json) : Prop :=
  Json.items item = .ok [p.1, p.2] ∧ Settings.isHashable p.1 = true

/-- What a setting becomes by an item with some value: a text stands for a list of one text where a
list is asked for, and an environment is a map, given as an object or by its pairs, whose names and
values become texts. -/
inductive Becomes : Setting → Json → Json → Prop
  | single {name : Setting} {s : String} (hlist : name = .targets ∨ name = .extraArguments) :
    Becomes name (.str s) (.arr [.str s])
  | object {members : List (String × Json)} :
    Becomes .env (.obj members) (.obj ((Json.dedup members).map fun m => (m.1, .str m.2.display)))
  | pairs {v : Json} {items : List Json} {ps : List (Json × Json)} (hkind : v.kind ≠ .obj)
    (hitems : Json.items v = .ok items) (hpairs : List.Forall₂ IsPair items ps) :
    Becomes .env v
      (.obj (Json.dedup ((Settings.mergeKeys ps).map fun p => (p.1.display, .str p.2.display))))
  | unset : Becomes .env .null .null
  | plain {name : Setting} {v : Json} (henv : name ≠ .env)
    (hlist : name = .targets ∨ name = .extraArguments → v.kind ≠ .str) : Becomes name v v

/-- The last of some items about a setting decides what it becomes; without one it stays as it is.
-/
def Follows (name : Setting) (items : List (String × Json)) (old new : Json) : Prop :=
  match (name.given items).getLast? with
  | none => new = old
  | some v => name.Becomes v new

end Setting

namespace Settings

/-! ## Environments -/

theorem sameKey_str (s t : String) : sameKey (.str s) (.str t) = (s == t) := rfl

theorem mergeKeys_concat (ps : List (Json × Json)) (p : Json × Json) :
    mergeKeys (ps ++ [p]) =
      if (mergeKeys ps).any fun q => sameKey q.1 p.1 then
        (mergeKeys ps).map fun q => if sameKey q.1 p.1 then (q.1, p.2) else q
      else mergeKeys ps ++ [p] := by
  rw [mergeKeys, List.foldl_append]
  rfl

/-- The pairs of an object are merged as its members are. -/
theorem mergeKeys_members (members : List (String × Json)) :
    mergeKeys (members.map fun m => (.str m.1, m.2)) =
      (Json.dedup members).map fun m => (.str m.1, m.2) := by
  induction members using List.reverseRecOn with
  | nil => rfl
  | append_singleton members e ih =>
    have hdedup : Json.dedup (members ++ [e]) = Json.setMember (Json.dedup members) e.1 e.2 := by
      simp [Json.dedup, List.foldl_append]
    rw [List.map_append, List.map_singleton, mergeKeys_concat, hdedup, ih, Json.setMember]
    simp only [List.any_map, Function.comp_def, sameKey_str, List.map_map]
    split
    · refine (List.map_congr_left fun m _ => ?_).trans (List.map_map ..).symm
      by_cases hname : m.1 = e.1 <;> simp [hname]
    · simp

/-- An object as environment. -/
theorem environment_obj (members : List (String × Json)) :
    environment (.obj members) =
      .ok (.obj ((Json.dedup members).map fun m => (m.1, .str m.2.display))) := by
  have hnames : ((Json.dedup members).map fun m => (m.1, Json.str m.2.display)).map Prod.fst =
      (Json.dedup members).map Prod.fst := by
    rw [List.map_map]
    rfl
  simp only [environment, mapping, bind, Except.bind, mergeKeys_members, List.map_map]
  have hdedup := Json.dedup_of_nodup (hnames ▸ Json.nodup_dedup members)
  exact congrArg (fun ms => Except.ok (Json.obj ms)) hdedup

theorem pair_eq_ok_iff (index : Nat) (item : Json) (p : Json × Json) :
    pair index item = .ok p ↔ Setting.IsPair item p := by
  obtain ⟨key, value⟩ := p
  unfold pair Setting.IsPair
  split
  · next hitems => simp [hitems]
  · next k v hitems =>
    rw [hitems]
    constructor
    · intro h
      split at h
      · next hhash =>
        obtain ⟨rfl, rfl⟩ := Prod.mk.inj (Except.ok.inj h)
        exact ⟨rfl, hhash⟩
      · exact absurd h (by simp)
    · rintro ⟨h, hhash⟩
      simp only [Except.ok.injEq, List.cons.injEq, and_true] at h
      obtain ⟨rfl, rfl⟩ := h
      rw [if_pos hhash]
  · next items hne hitems =>
    refine iff_of_false (by simp) ?_
    rintro ⟨h, -⟩
    obtain rfl := Except.ok.inj (hitems.symm.trans h)
    exact hne _ _ rfl

theorem mapM_pair_eq_ok_iff (items : List Json) (ps : List (Json × Json)) :
    (items.zipIdx.mapM fun (item, i) => pair i item) = .ok ps ↔
      List.Forall₂ Setting.IsPair items ps := by
  simp only [mapM_eq_ok_iff, pair_eq_ok_iff]
  rw [← List.forall₂_map_left_iff (f := Prod.fst), List.zipIdx_map_fst]

/-- What is no object describes a map by its pairs. -/
theorem mapping_eq_ok_iff {v : Json} (hkind : v.kind ≠ .obj) (ps : List (Json × Json)) :
    mapping v = .ok ps ↔
      ∃ items, Json.items v = .ok items ∧ List.Forall₂ Setting.IsPair items ps := by
  have hmapping : mapping v = (Json.items v >>= fun items =>
      items.zipIdx.mapM fun (item, i) => pair i item) := by
    unfold mapping
    split
    · exact absurd rfl hkind
    · rfl
  rw [hmapping]
  cases hitems : Json.items v with
  | error e => exact iff_of_false (by simp [bind, Except.bind]) (by simp)
  | ok items => simp [bind, Except.bind, mapM_pair_eq_ok_iff]

/-! ## Laying items -/

/-- What is laid for an item. -/
theorem itemValue_eq_ok_iff (name : Setting) (v x : Json) :
    itemValue name v = .ok x ↔ name.Becomes v x := by
  constructor
  · intro h
    unfold itemValue at h
    split at h
    · cases h
      exact .single (.inl rfl)
    · cases h
      exact .single (.inr rfl)
    · cases h
      exact .unset
    · by_cases hkind : v.kind = .obj
      · cases v with
        | obj members =>
          rw [environment_obj] at h
          cases h
          exact .object
        | _ => exact absurd hkind (by simp [Json.kind])
      · cases hmap : mapping v with
        | error e => simp [environment, hmap, bind, Except.bind] at h
        | ok ps =>
          obtain ⟨items, hitems, hpairs⟩ := (mapping_eq_ok_iff hkind ps).1 hmap
          simp only [environment, hmap, bind, Except.bind] at h
          cases h
          exact .pairs hkind hitems hpairs
    · next henv htargets hextra _ =>
      cases h
      refine .plain henv ?_
      rintro hlist hkind
      cases v with
      | str s => exact hlist.elim (fun h => htargets s h rfl) fun h => hextra s h rfl
      | _ => exact absurd hkind (by simp [Json.kind])
  · intro h
    cases h with
    | single hlist => rcases hlist with rfl | rfl <;> rfl
    | object => exact environment_obj _
    | @pairs v items ps hkind hitems hpairs =>
      have hmap := (mapping_eq_ok_iff hkind ps).2 ⟨items, hitems, hpairs⟩
      have hnull : v.kind ≠ .null := by
        rintro hnull
        cases v with
        | null => exact absurd hitems (by simp [Json.items])
        | _ => exact absurd hnull (by simp [Json.kind])
      have henv : itemValue .env v = environment v := by
        cases v with
        | null => exact absurd rfl hnull
        | _ => rfl
      rw [henv, environment, hmap]
      rfl
    | unset => rfl
    | plain henv hlist =>
      unfold itemValue
      split
      · exact absurd rfl (hlist (.inl rfl))
      · exact absurd rfl (hlist (.inr rfl))
      · rfl
      · exact absurd rfl henv
      · rfl

/-- Only an environment can be refused. -/
theorem eq_env_of_itemValue_error {name : Setting} {v : Json} {e : Fault}
    (h : itemValue name v = .error e) : name = .env := by
  unfold itemValue at h
  split at h <;> first | rfl | exact absurd h (by simp)

/-- Lay items over settings, without a log. -/
def laid (s : Settings) (items : List (String × Json)) : Except Fault Settings :=
  items.foldlM (fun s i =>
    match Setting.ofKey? i.1 with
    | none => .ok s
    | some name => (itemValue name i.2).map (s.set name)) s

variable {s s' : Settings} {items : List (String × Json)}

/-- Layers one over the other are one layer. -/
theorem laid_append (s : Settings) (a b : List (String × Json)) :
    laid s (a ++ b) = laid s a >>= fun s' => laid s' b := List.foldlM_append

theorem laid_cons_of_none {i : String × Json} (h : Setting.ofKey? i.1 = none) :
    laid s (i :: items) = laid s items := by
  simp [laid, h, bind, Except.bind]

theorem laid_cons_of_some {i : String × Json} {name : Setting}
    (h : Setting.ofKey? i.1 = some name) :
    laid s (i :: items) = itemValue name i.2 >>= fun x => laid (s.set name x) items := by
  cases hvalue : itemValue name i.2 with
  | error e => simp [laid, h, hvalue, Except.map, bind, Except.bind]
  | ok x => simp [laid, h, hvalue, Except.map, bind, Except.bind]

/-- The last item about a setting decides. -/
theorem follows_of_laid (h : laid s items = .ok s') (name : Setting) :
    name.Follows items (s.value name) (s'.value name) := by
  induction items generalizing s with
  | nil =>
    cases h
    rfl
  | cons i items ih =>
    cases hkey : Setting.ofKey? i.1 with
    | none =>
      rw [laid_cons_of_none hkey] at h
      have hother : ¬ name.IsKey i.1 := fun hname => by
        rw [(Setting.ofKey?_eq_some_iff i.1 name).2 hname] at hkey
        exact absurd hkey (by simp)
      rw [Setting.Follows, Setting.given_cons_of_not_isKey hother]
      exact ih h
    | some name' =>
      rw [laid_cons_of_some hkey] at h
      obtain ⟨x, hvalue, hlater⟩ := (bind_eq_ok_iff _ _ _).1 h
      have hrest := ih hlater
      by_cases hname : name = name'
      · -- the item is about the setting, and counts unless a later one is
        subst hname
        rw [Setting.Follows,
          Setting.given_cons_of_isKey ((Setting.ofKey?_eq_some_iff i.1 name).1 hkey),
          List.getLast?_cons]
        rw [Setting.Follows] at hrest
        cases hlast : (name.given items).getLast? with
        | none =>
          rw [hlast] at hrest
          have hx : s'.value name = x := by simpa using hrest
          show name.Becomes i.2 (s'.value name)
          rw [hx]
          exact (itemValue_eq_ok_iff name i.2 x).1 hvalue
        | some v =>
          rw [hlast] at hrest
          exact hrest
      · have hother : ¬ name.IsKey i.1 := fun h' => hname <| by
          rw [(Setting.ofKey?_eq_some_iff i.1 name).2 h'] at hkey
          exact Option.some.inj hkey
        rw [Setting.Follows, Setting.given_cons_of_not_isKey hother]
        rwa [value_set, if_neg hname] at hrest

/-- Items that cannot be laid have an environment that is no map. -/
theorem exists_of_laid_error {e : Fault} (h : laid s items = .error e) :
    ∃ v ∈ Setting.env.given items, itemValue .env v = .error e := by
  induction items generalizing s with
  | nil => exact absurd h (by simp [laid, pure, Except.pure])
  | cons i items ih =>
    have hmore : ∀ v ∈ Setting.env.given items, v ∈ Setting.env.given (i :: items) := by
      intro v hv
      rw [← List.singleton_append, Setting.given_append]
      exact List.mem_append_right _ hv
    cases hkey : Setting.ofKey? i.1 with
    | none =>
      rw [laid_cons_of_none hkey] at h
      obtain ⟨v, hv, hvalue⟩ := ih h
      exact ⟨v, hmore v hv, hvalue⟩
    | some name =>
      rw [laid_cons_of_some hkey] at h
      rcases (bind_eq_error_iff _ _ _).1 h with hvalue | ⟨x, -, hlater⟩
      · obtain rfl := eq_env_of_itemValue_error hvalue
        refine ⟨i.2, ?_, hvalue⟩
        rw [Setting.given_cons_of_isKey ((Setting.ofKey?_eq_some_iff i.1 .env).1 hkey)]
        exact List.mem_cons_self
      · obtain ⟨v, hv, hvalue⟩ := ih hlater
        exact ⟨v, hmore v hv, hvalue⟩

/-- Items can be laid if and only if every environment among them is a map, the last one or not. -/
theorem exists_laid_iff (s : Settings) (items : List (String × Json)) :
    (∃ s', laid s items = .ok s') ↔
      ∀ v ∈ Setting.env.given items, ∀ e, itemValue .env v ≠ .error e := by
  constructor
  · rintro ⟨s', h⟩ v hv e hvalue
    obtain ⟨i, hi, rfl⟩ := List.mem_map.1 hv
    obtain ⟨hitem, hkey⟩ := List.mem_filter.1 hi
    obtain ⟨before, later, rfl⟩ := List.append_of_mem hitem
    -- whatever comes before the item, it cannot be laid over it
    have hrefused : ∀ s, laid s (i :: later) = .error e := by
      intro s
      rw [laid_cons_of_some ((Setting.ofKey?_eq_some_iff i.1 .env).2 (by simpa using hkey)), hvalue]
      rfl
    rw [laid_append] at h
    obtain ⟨s₁, -, hlater⟩ := (bind_eq_ok_iff _ _ _).1 h
    exact absurd ((hrefused s₁).symm.trans hlater) (by simp)
  · intro h
    cases hlaid : laid s items with
    | ok s' => exact ⟨s', rfl⟩
    | error e =>
      obtain ⟨v, hv, hvalue⟩ := exists_of_laid_error hlaid
      exact absurd hvalue (h v hv e)

end Settings

end Overseer
