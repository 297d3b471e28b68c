import Overseer.Proofs.FileChanges
import Overseer.Proofs.Precedence

set_option autoImplicit false

/-! # Loading settings

Loading reads the global file and the file of the workspace root and lays their items, and those of
the host, one over the other; all else that it does is to write to the log. What comes out is what
one pass over all items gives, so the last item about a setting decides, be it in whichever layer
(`value_of_last_item`). A file that is missing, cannot be opened, is not JSON or holds no object
gives no items (`Gives`).

Loading does not always succeed, though. A file bars it (`Bars`) if its bytes are not UTF-8, if it
has a whole number that is too long, or if an environment in it is no map. So does a path at which
it cannot be told whether there is a file. Nothing else does (`load_ok_iff_not_barred`). -/

namespace Overseer

namespace World

/-! ## Log records -/

/-- Records have been written to the log: files may have become longer, but not without a log file.
-/
structure Recorded (w w' : World) : Prop where
  appended : w.Appended w'
  sinks : w'.sinks = w.sinks
  files : (∀ sink ∈ w.sinks, sink = .console) → w'.files = w.files

variable {w w' w'' : World} {path : Path}

theorem Recorded.refl (w : World) : w.Recorded w := ⟨.refl w, rfl, fun _ => rfl⟩

theorem Recorded.trans (h : w.Recorded w') (h' : w'.Recorded w'') : w.Recorded w'' :=
  ⟨h.appended.trans h'.appended, h'.sinks.trans h.sinks,
    fun hconsole => (h'.files (h.sinks ▸ hconsole)).trans (h.files hconsole)⟩

theorem recorded_record (w : World) (r : LogRecord) : w.Recorded (w.record r) := by
  have hsinks : ∀ (sinks : List LogSink) (w : World),
      (sinks.foldl (fun w s => w.writeTo r.line s) w).sinks = w.sinks ∧
        ((∀ sink ∈ sinks, sink = .console) →
          (sinks.foldl (fun w s => w.writeTo r.line s) w).files = w.files) := by
    intro sinks
    induction sinks with
    | nil => exact fun w => ⟨rfl, fun _ => rfl⟩
    | cons sink sinks ih =>
      intro w
      obtain ⟨hsame, hfiles⟩ := ih (w.writeTo r.line sink)
      refine ⟨hsame.trans (by cases sink <;> rfl), fun hconsole => ?_⟩
      rw [List.foldl_cons, hfiles fun s hs => hconsole s (List.mem_cons_of_mem _ hs),
        hconsole sink List.mem_cons_self]
      rfl
  refine ⟨appended_record w r, ?_, fun hconsole => ?_⟩
  · unfold record
    split
    · rfl
    · exact (hsinks w.sinks _).1
  · unfold record
    split
    · rfl
    · exact (hsinks w.sinks _).2 hconsole

/-! ## Settings files -/

/-- The items that a settings file gives. -/
inductive Gives (w : World) (path : Path) : List (String × Json) → Prop
  | missing (hpath : w.pathExists path = .ok false) : Gives w path []
  | closed {refusal : Files.Refusal} (hpath : w.pathExists path = .ok true)
    (hread : w.readBytes path.text = .error (.files refusal path.text)) : Gives w path []
  | malformed {text : String} {complaint : Json.Complaint} (hpath : w.pathExists path = .ok true)
    (htext : w.readText path.text = .ok text)
    (hread : Json.read text = .error (.malformed complaint)) : Gives w path []
  | other {text : String} {v : Json} (hpath : w.pathExists path = .ok true)
    (htext : w.readText path.text = .ok text) (hread : Json.read text = .ok v)
    (hkind : v.kind ≠ .obj) : Gives w path []
  | object {text : String} {items : List (String × Json)} (hpath : w.pathExists path = .ok true)
    (htext : w.readText path.text = .ok text) (hread : Json.read text = .ok (.obj items)) :
    Gives w path items

/-- A settings file that can be opened but not be read, or of which it cannot be told whether it is
there. -/
inductive Unreadable (w : World) (path : Path) : Fault → Prop
  | hidden {e : Fault} (hpath : w.pathExists path = .error e) : Unreadable w path e
  | encoding {bytes : List UInt8} (hpath : w.pathExists path = .ok true)
    (hbytes : w.readBytes path.text = .ok bytes) (htext : Text.fileText? bytes = none) :
    Unreadable w path (.encoding bytes)
  | digits {text : String} {count : Text.TooManyDigits} (hpath : w.pathExists path = .ok true)
    (htext : w.readText path.text = .ok text) (hread : Json.read text = .error (.digits count)) :
    Unreadable w path (.digits count)

/-- What keeps settings from being loaded with a settings file. -/
inductive Bars (w : World) (path : Path) : Fault → Prop
  | unreadable {e : Fault} (h : w.Unreadable path e) : Bars w path e
  | environment {items : List (String × Json)} {v : Json} {e : Fault} (hgives : w.Gives path items)
    (hgiven : v ∈ Setting.env.given items) (hvalue : Settings.itemValue .env v = .error e) :
    Bars w path e

/-- The items of a settings file, read without a log. -/
def settingsItems (w : World) (path : Path) : Except Fault (List (String × Json)) :=
  match w.pathExists path with
  | .error e => .error e
  | .ok false => .ok []
  | .ok true =>
    match w.readText path.text >>= Json.parse with
    | .ok (.obj items) => .ok items
    | .ok _ => .ok []
    | .error e => if e.cls.isA .json || e.cls.isA .os then .ok [] else .error e

/-- What refuses to be read, though it is there, is refused by the operating system. -/
theorem isA_os_of_refused {refusal : Files.Refusal} (hpath : w.pathExists path = .ok true)
    (hread : w.readBytes path.text = .error (.files refusal path.text)) :
    (Fault.files refusal path.text).cls.isA .os = true := by
  obtain ⟨place, node, hstat⟩ := Files.pathExists_iff.1 (granted_eq_ok.1 hpath)
  rw [readBytes, Files.readBytes, hstat] at hread
  dsimp only at hread
  split at hread
  · cases hread
    rfl
  · cases node <;> cases hread <;> rfl

theorem readText_of_bytes {bytes : List UInt8} (hbytes : w.readBytes path.text = .ok bytes) :
    w.readText path.text = match Text.fileText? bytes with
      | some text => .ok text
      | none => .error (.encoding bytes) := by
  rw [readText, hbytes]
  rfl

theorem settingsItems_of_gives {items : List (String × Json)} (h : w.Gives path items) :
    w.settingsItems path = .ok items := by
  cases h with
  | missing hpath => simp [settingsItems, hpath]
  | closed hpath hread =>
    simp [settingsItems, hpath, readText, hread, bind, Except.bind, isA_os_of_refused hpath hread]
  | malformed hpath htext hread =>
    have hjson : ∀ complaint, (Fault.json complaint).cls.isA .json = true := fun _ => rfl
    simp [settingsItems, hpath, htext, Json.parse, hread, bind, Except.bind, hjson]
  | @other text v hpath htext hread hkind =>
    cases v with
    | obj members => exact absurd rfl hkind
    | _ => simp [settingsItems, hpath, htext, Json.parse, hread, bind, Except.bind]
  | object hpath htext hread =>
    simp [settingsItems, hpath, htext, Json.parse, hread, bind, Except.bind]

theorem settingsItems_of_unreadable {e : Fault} (h : w.Unreadable path e) :
    w.settingsItems path = .error e := by
  cases h with
  | hidden hpath => rw [settingsItems, hpath]
  | @encoding bytes hpath hbytes htext =>
    have hcls : ((Fault.encoding bytes).cls.isA .json || (Fault.encoding bytes).cls.isA .os) =
        false := rfl
    simp only [settingsItems, hpath, readText_of_bytes hbytes, htext, bind, Except.bind, hcls]
    rfl
  | @digits text count hpath htext hread =>
    have hcls : ((Fault.digits count).cls.isA .json || (Fault.digits count).cls.isA .os) =
        false := rfl
    simp only [settingsItems, hpath, htext, Json.parse, hread, bind, Except.bind, hcls]
    rfl

/-- A settings file gives items, or it cannot be read. -/
theorem gives_or_unreadable (w : World) (path : Path) :
    (∃ items, w.Gives path items) ∨ ∃ e, w.Unreadable path e := by
  rcases hpath : w.pathExists path with e | (_ | _)
  · exact .inr ⟨e, .hidden hpath⟩
  · exact .inl ⟨[], .missing hpath⟩
  · cases hbytes : Files.readBytes w.files w.cwd path.text with
    | error refusal => exact .inl ⟨[], .closed hpath (by rw [readBytes, hbytes]; rfl)⟩
    | ok bytes =>
      have hread : w.readBytes path.text = .ok bytes := by rw [readBytes, hbytes]; rfl
      cases htext : Text.fileText? bytes with
      | none => exact .inr ⟨_, .encoding hpath hread htext⟩
      | some text =>
        have htext' : w.readText path.text = .ok text := by rw [readText_of_bytes hread, htext]
        cases hjson : Json.read text with
        | error problem =>
          cases problem with
          | malformed complaint => exact .inl ⟨[], .malformed hpath htext' hjson⟩
          | digits count => exact .inr ⟨_, .digits hpath htext' hjson⟩
        | ok v =>
          cases v with
          | obj items => exact .inl ⟨items, .object hpath htext' hjson⟩
          | _ => exact .inl ⟨[], .other hpath htext' hjson (by simp [Json.kind])⟩

theorem settingsItems_eq_ok_iff (items : List (String × Json)) :
    w.settingsItems path = .ok items ↔ w.Gives path items := by
  refine ⟨fun h => ?_, settingsItems_of_gives⟩
  rcases gives_or_unreadable w path with ⟨items', hgives⟩ | ⟨e, hbad⟩
  · obtain rfl := Except.ok.inj ((settingsItems_of_gives hgives).symm.trans h)
    exact hgives
  · exact absurd ((settingsItems_of_unreadable hbad).symm.trans h) (by simp)

theorem settingsItems_eq_error_iff (e : Fault) :
    w.settingsItems path = .error e ↔ w.Unreadable path e := by
  refine ⟨fun h => ?_, settingsItems_of_unreadable⟩
  rcases gives_or_unreadable w path with ⟨items, hgives⟩ | ⟨e', hbad⟩
  · exact absurd ((settingsItems_of_gives hgives).symm.trans h) (by simp)
  · obtain rfl := Except.error.inj ((settingsItems_of_unreadable hbad).symm.trans h)
    exact hbad

/-- What stops a file from being laid over settings bars loading. -/
theorem bars_of_error {s : Settings} {e : Fault}
    (h : (w.settingsItems path >>= Settings.laid s) = .error e) : w.Bars path e := by
  rcases (bind_eq_error_iff _ _ _).1 h with hitems | ⟨items, hitems, hlaid⟩
  · exact .unreadable ((settingsItems_eq_error_iff e).1 hitems)
  · obtain ⟨v, hv, hvalue⟩ := Settings.exists_of_laid_error hlaid
    exact .environment ((settingsItems_eq_ok_iff items).1 hitems) hv hvalue

/-- A file can be laid over settings, whichever they are, if and only if nothing bars loading it. -/
theorem exists_laid_iff_not_barred (s : Settings) :
    (∃ s', (w.settingsItems path >>= Settings.laid s) = .ok s') ↔ ∀ e, ¬ w.Bars path e := by
  constructor
  · rintro ⟨s', h⟩ e hbars
    cases hbars with
    | unreadable hbad =>
      rw [settingsItems_of_unreadable hbad] at h
      exact absurd h (by simp [bind, Except.bind])
    | environment hgives hgiven hvalue =>
      rw [settingsItems_of_gives hgives] at h
      exact (Settings.exists_laid_iff s _).1 ⟨s', h⟩ _ hgiven _ hvalue
  · intro hfree
    cases h : w.settingsItems path >>= Settings.laid s with
    | ok s' => exact ⟨s', rfl⟩
    | error e => exact absurd (bars_of_error h) (hfree e)

/-- Where the global settings are: where the host says, or else below the home directory. -/
inductive GlobalPlace (w : World) : Option String → Path → Prop
  | told {p : String} (hp : p ≠ "") : GlobalPlace w (some p) (Path.ofString p)
  | home {globalPath : Option String} {place : Path}
    (hnone : globalPath = none ∨ globalPath = some "")
    (hhome : Settings.defaultGlobalPath w = .ok place) : GlobalPlace w globalPath place

end World

namespace Settings

/-! ## Running -/

variable {w : World} {s s' : Settings}

theorem exec_readItems (path : Path) (w : World) :
    ∃ w', w.Recorded w' ∧ (readItems path).exec w = (w.settingsItems path, w') := by
  rw [readItems, Daemon.exec_bind, Act.exec_get, World.settingsItems]
  dsimp only
  rw [Daemon.exec_bind, Daemon.exec_look]
  rcases w.pathExists path with e | (_ | _)
  · exact ⟨w, .refl w, rfl⟩
  · exact ⟨w, .refl w, rfl⟩
  · simp only [Bool.not_true, Bool.false_eq_true, if_false]
    cases w.readText path.text >>= Json.parse with
    | error e =>
      dsimp only
      split
      · rw [Daemon.exec_bind, Act.exec_log]
        exact ⟨_, World.recorded_record w _, rfl⟩
      · exact ⟨w, .refl w, rfl⟩
    | ok v =>
      cases v with
      | obj items => exact ⟨w, .refl w, rfl⟩
      | _ =>
        dsimp only
        rw [Daemon.exec_bind, Act.exec_log]
        exact ⟨_, World.recorded_record w _, rfl⟩

theorem exec_overlay (s : Settings) (items : List (String × Json)) (w : World) :
    ∃ w', w.Recorded w' ∧ (overlay s items).exec w = (laid s items, w') := by
  induction items generalizing s w with
  | nil => exact ⟨w, .refl w, rfl⟩
  | cons i items ih =>
    have hcons : overlay s (i :: items) = overlayItem s i >>= fun s' => overlay s' items := rfl
    rw [hcons, Daemon.exec_bind, overlayItem]
    cases hkey : Setting.ofKey? i.1 with
    | none =>
      rw [laid_cons_of_none hkey]
      simp only [Daemon.exec_bind, Act.exec_log]
      obtain ⟨w', hw', hrest⟩ := ih s (w.record ⟨.warning, .settings,
        "Ignoring unknown setting: " ++ i.1⟩)
      exact ⟨w', (World.recorded_record w _).trans hw', hrest⟩
    | some name =>
      rw [laid_cons_of_some hkey]
      simp only [Daemon.exec_bind, Daemon.exec_look]
      cases itemValue name i.2 with
      | error e => exact ⟨w, .refl w, rfl⟩
      | ok x => exact ih (s.set name x) w

theorem exec_layer (s : Settings) (path : Path) (w : World) :
    ∃ w', w.Recorded w' ∧
      (readItems path >>= overlay s).exec w = (w.settingsItems path >>= laid s, w') := by
  obtain ⟨w₁, hw₁, hread⟩ := exec_readItems path w
  rw [Daemon.exec_bind, hread]
  cases w.settingsItems path with
  | error e => exact ⟨w₁, hw₁, rfl⟩
  | ok items =>
    obtain ⟨w', hw', hlaid⟩ := exec_overlay s items w₁
    exact ⟨w', hw₁.trans hw', hlaid⟩

/-- The items that the host gives. -/
def hostItems : Option Json → List (String × Json)
  | some (.obj items) => items
  | _ => []

/-- Lay what the host gives over settings, without a log. -/
def hostLaid (s : Settings) (overrides : Option Json) : Except Fault Settings :=
  match overrides with
  | none => .ok s
  | some v =>
    if v.isGiven then
      match v with
      | .obj items => laid s items
      | v => .error (.misuse (.noMember v.kind "items"))
    else .ok s

theorem laid_of_hostLaid {overrides : Option Json} (h : hostLaid s overrides = .ok s') :
    laid s (hostItems overrides) = .ok s' := by
  unfold hostLaid at h
  split at h
  · exact h
  · next v =>
    split at h
    · split at h
      · exact h
      · exact absurd h (by simp)
    · next hempty =>
      rw [← h]
      cases v with
      | obj items =>
        obtain rfl : items = [] := by simpa [Json.isGiven] using hempty
        rfl
      | _ => rfl

/-- The place of the settings of a workspace root. -/
def rootPlace (root : String) : Path := (Path.ofString root).child rootFile

theorem exec_host (s : Settings) (overrides : Option Json) (w : World) :
    ∃ w', w.Recorded w' ∧ (match overrides with
      | some v => if v.isGiven then overlayValue s v else return s
      | none => return s : Act Settings).exec w = (hostLaid s overrides, w') := by
  cases overrides with
  | none => exact ⟨w, .refl w, rfl⟩
  | some v =>
    dsimp only [hostLaid]
    split
    · cases v with
      | obj items => exact exec_overlay s items w
      | _ => exact ⟨w, .refl w, rfl⟩
    · exact ⟨w, .refl w, rfl⟩

/-- The settings of a workspace root, loaded without a log: three layers one over the other, the
file of the root in a world of its own. -/
def loaded (w w₁ : World) (place : Path) (root : String) (overrides : Option Json) :
    Except Fault Settings := do
  let s ← w.settingsItems place >>= laid {}
  let s ← w₁.settingsItems (rootPlace root) >>= laid s
  hostLaid s overrides

/-- Find the place of the global settings. -/
def globalPlace (globalPath : Option String) : Act Path :=
  match globalPath with
  | some p => if p.isEmpty then Act.look defaultGlobalPath else pure (Path.ofString p)
  | none => Act.look defaultGlobalPath

/-- Lay all layers, the first of them from some place. -/
def layers (root : String) (overrides : Option Json) (place : Path) : Act Settings := do
  let s ← readItems place >>= overlay {}
  let s ← readItems (rootPlace root) >>= overlay s
  match overrides with
  | some v => if v.isGiven then overlayValue s v else return s
  | none => return s

theorem load_eq (root : String) (globalPath : Option String) (overrides : Option Json) :
    load root globalPath overrides = globalPlace globalPath >>= layers root overrides := by
  unfold load layers globalPlace
  simp only [bind_assoc]
  -- what comes after the place has been found is there once for every way to find it
  cases globalPath with
  | none => rfl
  | some p =>
    dsimp only
    split <;> rfl

theorem exec_globalPlace {globalPath : Option String} {place : Path}
    (hplace : w.GlobalPlace globalPath place) :
    (globalPlace globalPath).exec w = (.ok place, w) := by
  cases hplace with
  | told hp =>
    rw [globalPlace, if_neg (by simpa using hp)]
    rfl
  | home hnone hhome =>
    rcases hnone with rfl | rfl
    · rw [globalPlace, Daemon.exec_look, hhome]
    · rw [globalPlace, if_pos (by rfl), Daemon.exec_look, hhome]

/-- Settings are loaded from somewhere. -/
theorem exists_globalPlace {globalPath : Option String} {overrides : Option Json} {root : String}
    {w' : World} (h : (load root globalPath overrides).exec w = (.ok s, w')) :
    ∃ place, w.GlobalPlace globalPath place := by
  have hhome : globalPath = none ∨ globalPath = some "" →
      (globalPlace globalPath).exec w = (defaultGlobalPath w, w) := by
    rintro (rfl | rfl)
    · exact Daemon.exec_look _ w
    · exact Daemon.exec_look _ w
  by_cases htold : globalPath = none ∨ globalPath = some ""
  · rw [load_eq, Daemon.exec_bind, hhome htold] at h
    cases hplace : defaultGlobalPath w with
    | ok place => exact ⟨place, .home htold hplace⟩
    | error e =>
      rw [hplace] at h
      exact absurd (congrArg Prod.fst h) (by simp)
  · obtain ⟨hnone, hempty⟩ := not_or.1 htold
    obtain ⟨p, rfl⟩ := Option.ne_none_iff_exists'.1 hnone
    exact ⟨Path.ofString p, .told fun hp => hempty (hp ▸ rfl)⟩

/-- The file of the root is read behind the log records about the first layer. -/
theorem exec_load {globalPath : Option String} {place : Path}
    (hplace : w.GlobalPlace globalPath place) (root : String) (overrides : Option Json) :
    ∃ w₁ w', w.Recorded w₁ ∧
      (load root globalPath overrides).exec w = (loaded w w₁ place root overrides, w') := by
  rw [load_eq, Daemon.exec_bind, exec_globalPlace hplace]
  dsimp only
  rw [layers, Daemon.exec_bind]
  obtain ⟨w₁, hw₁, hglobal⟩ := exec_layer {} place w
  rw [hglobal]
  cases hfirst : w.settingsItems place >>= laid {} with
  | error e => exact ⟨w₁, w₁, hw₁, by rw [loaded, hfirst]; rfl⟩
  | ok s₁ =>
    obtain ⟨w₂, -, hown⟩ := exec_layer s₁ (rootPlace root) w₁
    have hloaded : loaded w w₁ place root overrides =
        (w₁.settingsItems (rootPlace root) >>= laid s₁) >>= fun s => hostLaid s overrides := by
      rw [loaded, hfirst]
      rfl
    dsimp only
    rw [Daemon.exec_bind, hown]
    cases hsecond : w₁.settingsItems (rootPlace root) >>= laid s₁ with
    | error e => exact ⟨w₁, w₂, hw₁, by rw [hloaded, hsecond]; rfl⟩
    | ok s₂ =>
      obtain ⟨w', -, hhost⟩ := exec_host s₂ overrides w₂
      exact ⟨w₁, w', hw₁, by rw [hloaded, hsecond]; exact hhost⟩

/-- What has been loaded is laid from the items of the two files and of the host. -/
theorem exists_items_of_loaded {w₁ : World} {place : Path} {root : String} {overrides : Option Json}
    (h : loaded w w₁ place root overrides = .ok s) :
    ∃ global own, w.Gives place global ∧ w₁.Gives (rootPlace root) own ∧
      laid {} (global ++ own ++ hostItems overrides) = .ok s := by
  obtain ⟨s₁, hfirst, h⟩ := (bind_eq_ok_iff _ _ _).1 h
  obtain ⟨s₂, hsecond, h⟩ := (bind_eq_ok_iff _ _ _).1 h
  obtain ⟨global, hglobal, hfirst⟩ := (bind_eq_ok_iff _ _ _).1 hfirst
  obtain ⟨own, hown, hsecond⟩ := (bind_eq_ok_iff _ _ _).1 hsecond
  refine ⟨global, own, (World.settingsItems_eq_ok_iff global).1 hglobal,
    (World.settingsItems_eq_ok_iff own).1 hown, ?_⟩
  rw [laid_append, bind_eq_ok_iff]
  refine ⟨s₂, ?_, laid_of_hostLaid h⟩
  rw [laid_append, bind_eq_ok_iff]
  exact ⟨s₁, hfirst, hsecond⟩

/-- Without a host, loading is laying the two files. -/
theorem loaded_none (w w₁ : World) (place : Path) (root : String) :
    loaded w w₁ place root none = (w.settingsItems place >>= laid {}) >>= fun s =>
      w₁.settingsItems (rootPlace root) >>= laid s := by
  show ((w.settingsItems place >>= laid {}) >>= fun s =>
    (w₁.settingsItems (rootPlace root) >>= laid s) >>= fun s => pure s) = _
  simp only [bind_pure]

/-- The fault of loading is that of a file that bars it. -/
theorem bars_of_loaded_error {w₁ : World} {place : Path} {root : String} {e : Fault}
    (h : loaded w w₁ place root none = .error e) :
    w.Bars place e ∨ w₁.Bars (rootPlace root) e := by
  rw [loaded_none] at h
  rcases (bind_eq_error_iff _ _ _).1 h with hfirst | ⟨s₁, -, hown⟩
  · exact .inl (World.bars_of_error hfirst)
  · exact .inr (World.bars_of_error hown)

/-- Settings are loaded unless a file bars it. -/
theorem exists_loaded_iff {w₁ : World} {place : Path} {root : String} :
    (∃ s, loaded w w₁ place root none = .ok s) ↔
      (∀ e, ¬ w.Bars place e) ∧ ∀ e, ¬ w₁.Bars (rootPlace root) e := by
  rw [loaded_none]
  constructor
  · rintro ⟨s, h⟩
    obtain ⟨s₁, hfirst, hsecond⟩ := (bind_eq_ok_iff _ _ _).1 h
    exact ⟨(World.exists_laid_iff_not_barred {}).1 ⟨s₁, hfirst⟩,
      (World.exists_laid_iff_not_barred s₁).1 ⟨s, hsecond⟩⟩
  · rintro ⟨hglobal, hown⟩
    obtain ⟨s₁, hfirst⟩ := (World.exists_laid_iff_not_barred {}).2 hglobal
    obtain ⟨s, hsecond⟩ := (World.exists_laid_iff_not_barred s₁).2 hown
    exact ⟨s, (bind_eq_ok_iff _ _ _).2 ⟨s₁, hfirst, hsecond⟩⟩

/-! ## All layers -/

/-- Laying items in one layer or in two is the same, log records and faults included. Whenever
settings are loaded, each of them is decided by the last item about it, in whichever layer and
spelling, and has its default if there is none; that is what one pass over all items gives. -/
theorem value_of_last_item :
    (∀ (s : Settings) (a b : List (String × Json)),
      overlay s (a ++ b) = overlay s a >>= fun s' => overlay s' b) ∧
    ∀ (root : String) (globalPath : Option String) (overrides : Option Json) (w w' : World)
      (s : Settings), (load root globalPath overrides).exec w = (.ok s, w') →
      ∃ place w₁ global own, w.GlobalPlace globalPath place ∧ w.Recorded w₁ ∧
        w.Gives place global ∧ w₁.Gives (rootPlace root) own ∧
        (∀ name : Setting, name.Follows (global ++ own ++ hostItems overrides) name.default
          (s.value name)) ∧
        ∃ w₂, w.Recorded w₂ ∧
          (overlay {} (global ++ own ++ hostItems overrides)).exec w = (.ok s, w₂) := by
  refine ⟨fun s a b => List.foldlM_append, fun root globalPath overrides w w' s hload => ?_⟩
  obtain ⟨place, hplace⟩ := exists_globalPlace hload
  obtain ⟨w₁, w'', hw₁, hexec⟩ := exec_load hplace root overrides
  obtain ⟨global, own, hglobal, hown, hlaid⟩ :=
    exists_items_of_loaded (congrArg Prod.fst (hexec.symm.trans hload))
  obtain ⟨w₂, hw₂, hoverlay⟩ := exec_overlay {} (global ++ own ++ hostItems overrides) w
  rw [hlaid] at hoverlay
  exact ⟨place, w₁, global, own, hplace, hw₁, hglobal, hown, follows_of_laid hlaid, w₂, hw₂,
    hoverlay⟩

/-- A world with some files and a home directory. -/
def withFiles (files : List (String × List UInt8)) : World :=
  { files := files.foldl (fun t f => t.put (Files.Tree.locationOf f.1) (.file f.2)) {}
    environment := Assoc.ofList [("HOME", "/home/u")] }

/-- The bytes of a text. -/
def bytesOf (text : String) : List UInt8 := Text.encode text.toList

/-- What a run comes to, read off a test of it. -/
theorem exists_exec_of_any {α : Type} {x : Act α} {w : World} {p : α → Bool}
    (h : (x.exec w).1.toOption.any p = true) : ∃ a w', x.exec w = (.ok a, w') ∧ p a = true := by
  generalize x.exec w = ran at h
  obtain ⟨e | a, w'⟩ := ran
  · exact absurd h (by simp [Except.toOption])
  · exact ⟨a, w', rfl, h⟩

/-- Both spellings in one file, a root that takes one of them up again, and an unknown key. -/
def threeLayers : World :=
  withFiles [
    ("/home/u/.config/mypyd/settings.json", bytesOf
      ("\x7b\"dmypy_executable\": \"a\", \"dmypyExecutable\": \"b\", " ++
        "\"targets\": \"src\", \"cwd\": 1\x7d")),
    ("/w/.mypyd.json", bytesOf
      "\x7b\"cwd\": \"/v\", \"env\": \x7b\"N\": 1, \"F\": true\x7d, \"colour\": 3\x7d")]

/-- The later spelling wins inside the global file, the file of the root over it, and the host over
both. -/
theorem value_of_last_item_in_three_layers :
    ∃ s w', (load "/w" none (some (.obj [("targets", .str "lib"), ("enabled", .bool false)]))).exec
        threeLayers = (.ok s, w') ∧
      Setting.all.map (fun name => (s.value name).display) =
        ["b", "mypy", "False", "None", "['lib']", "None", "[]",
          "\x7b'N': '1', 'F': 'True'\x7d", "None", "/v", "None", "False", "False"] ∧
      ∃ place w₁ global own, threeLayers.GlobalPlace none place ∧ threeLayers.Recorded w₁ ∧
        threeLayers.Gives place global ∧ w₁.Gives (rootPlace "/w") own ∧
        ∀ name : Setting, name.Follows
          (global ++ own ++ [("targets", .str "lib"), ("enabled", .bool false)]) name.default
          (s.value name) := by
  have hrun : ((load "/w" none (some (.obj [("targets", .str "lib"),
      ("enabled", .bool false)]))).exec threeLayers).1.toOption.any (fun s =>
        Setting.all.map (fun name => (s.value name).display) == ["b", "mypy", "False", "None",
          "['lib']", "None", "[]", "\x7b'N': '1', 'F': 'True'\x7d", "None", "/v", "None", "False",
          "False"]) = true := by
    decide +kernel
  obtain ⟨s, w', hload, hvalues⟩ := exists_exec_of_any hrun
  obtain ⟨place, w₁, global, own, hplace, hw₁, hglobal, hown, hvalue, -⟩ :=
    value_of_last_item.2 _ _ _ _ _ _ hload
  exact ⟨s, w', hload, by simpa using hvalues, place, w₁, global, own, hplace, hw₁, hglobal, hown,
    hvalue⟩

/-! ## When loading succeeds -/

/-- Settings are loaded if and only if neither file bars it; a file that is missing or that cannot
be made sense of otherwise gives no items. What loading without a host ends with is the fault of a
file that bars it, or settings that are decided by the items of the two files. -/
theorem load_ok_iff_not_barred {w : World} {globalPath : Option String} {place : Path}
    (hplace : w.GlobalPlace globalPath place) (root : String) :
    ∃ w₁, w.Recorded w₁ ∧
      ((∃ s w', (load root globalPath none).exec w = (.ok s, w')) ↔
        (∀ e, ¬ w.Bars place e) ∧ ∀ e, ¬ w₁.Bars (rootPlace root) e) ∧
      (∀ e w', (load root globalPath none).exec w = (.error e, w') →
        w.Bars place e ∨ w₁.Bars (rootPlace root) e) ∧
      ∀ s w', (load root globalPath none).exec w = (.ok s, w') →
        ∃ global own, w.Gives place global ∧ w₁.Gives (rootPlace root) own ∧
          ∀ name : Setting, name.Follows (global ++ own) name.default (s.value name) := by
  obtain ⟨w₁, w', hw₁, hexec⟩ := exec_load hplace root none
  refine ⟨w₁, hw₁, ?_, fun e w'' h => ?_, fun s w'' h => ?_⟩
  · rw [← exists_loaded_iff, hexec]
    simp
  · exact bars_of_loaded_error (congrArg Prod.fst (hexec.symm.trans h))
  · obtain ⟨global, own, hglobal, hown, hlaid⟩ :=
      exists_items_of_loaded (congrArg Prod.fst (hexec.symm.trans h))
    have hnone : hostItems none = [] := rfl
    rw [hnone, List.append_nil] at hlaid
    exact ⟨global, own, hglobal, hown, follows_of_laid hlaid⟩

/-- Two files that cannot be made sense of: one that breaks off, and one that holds a list. -/
def brokenFiles : World :=
  withFiles [("/home/u/.config/mypyd/settings.json", bytesOf "\x7b\"targets\": "),
    ("/w/.mypyd.json", bytesOf "[1]")]

/-- They do not bar loading, and leave every setting at its default. -/
theorem load_ok_iff_not_barred_by_broken :
    brokenFiles.GlobalPlace none (Path.ofString "/home/u/.config/mypyd/settings.json") ∧
      (∃ s w', (load "/w" none none).exec brokenFiles = (.ok s, w') ∧
        ∀ name : Setting, (s.value name).display = name.default.display) ∧
      ∃ w₁, brokenFiles.Recorded w₁ ∧
        (∀ e, ¬ brokenFiles.Bars (Path.ofString "/home/u/.config/mypyd/settings.json") e) ∧
        ∀ e, ¬ w₁.Bars (rootPlace "/w") e := by
  have hplace : brokenFiles.GlobalPlace none
      (Path.ofString "/home/u/.config/mypyd/settings.json") := by
    refine .home (.inl rfl) ?_
    have hhome : homeText brokenFiles = some "/home/u" := by decide +kernel
    have hjoin : Path.ofString "/home/u" / Path.ofString globalFile =
        Path.ofString "/home/u/.config/mypyd/settings.json" := by
      decide +kernel
    simp [defaultGlobalPath, hhome, hjoin]
  have hrun : ((load "/w" none none).exec brokenFiles).1.toOption.any (fun s =>
      Setting.all.all fun name => (s.value name).display == name.default.display) = true := by
    decide +kernel
  obtain ⟨s, w', hload, hvalues⟩ := exists_exec_of_any hrun
  obtain ⟨w₁, hw₁, hiff, -⟩ := load_ok_iff_not_barred hplace "/w"
  refine ⟨hplace, ⟨s, w', hload, fun name => ?_⟩, w₁, hw₁, hiff.1 ⟨s, w', hload⟩⟩
  simpa using List.all_eq_true.1 hvalues name (Setting.mem_all name)

/-- A file whose bytes are not UTF-8 bars loading. -/
theorem load_barred_by_encoding :
    ∃ w', (load "/w" none none).exec (withFiles [("/w/.mypyd.json", [0xff])]) =
      (.error (.encoding [0xff]), w') := by
  have hrun : (match ((load "/w" none none).exec (withFiles [("/w/.mypyd.json", [0xff])])).1 with
      | .error e => e == .encoding [0xff]
      | .ok _ => false) = true := by
    decide +kernel
  generalize (load "/w" none none).exec (withFiles [("/w/.mypyd.json", [0xff])]) = ran at hrun
  obtain ⟨e | s, w'⟩ := ran
  · exact ⟨w', by rw [eq_of_beq hrun]⟩
  · exact absurd hrun (by simp)

end Settings

end Overseer
