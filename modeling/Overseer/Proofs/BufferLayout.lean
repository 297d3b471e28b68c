import Overseer.Proofs.FragmentLines

set_option autoImplicit false

/-! # How a buffer is laid out

The buffer of a document can be written line by line (`Draft`): a line of a target fragment goes to
the end, and unless it is a directive its place is entered in the line map, which refuses a place
that it knows already. No line is ever refused, because the place is the number of lines written so
far, and what comes out is the buffer (`join?_eq`).

So the buffer shows the lines of the target fragments one behind the other, with directives
blanked. The line map gives back where a line came from, knows neither directives nor lines that the
buffer does not have, and lists its places in ascending order. -/

namespace Overseer

/-! ## Writing line by line -/

/-- A buffer that is being written. -/
structure Draft where
  lines : List String := []
  map : LineMap := {}

namespace Draft

/-- Write one line of a fragment. -/
def push? (d : Draft) (f : Fragment) (number : Nat) (line : String) : Option Draft :=
  if Fragment.isDirective line then some { d with lines := d.lines ++ [""] }
  else do
    let lines := d.lines ++ [line]
    return ⟨lines, ← d.map.add? lines.length ⟨f.index, number⟩⟩

/-- Write all lines of a fragment. -/
def pushAll? (d : Draft) (f : Fragment) : Option Draft :=
  f.lines.zipIdx.foldlM (fun d (line, i) => d.push? f (i + 1) line) d

/-- The buffer that has been written. -/
def buffer (d : Draft) : Buffer := ⟨"\n".intercalate d.lines, d.map⟩

/-- What has been written when some places of a buffer have been filled. -/
def ofSlots (slots : List Slot) : Draft :=
  ⟨slots.map (·.text), ⟨Assoc.ofList (Buffer.origins slots)⟩⟩

end Draft

/-- Join the target fragments line by line; there is no buffer if a line is refused. -/
def Buffer.join? (fragments : List Fragment) (language : String) : Option Buffer := do
  let d ← fragments.foldlM
    (fun d f => if f.isTarget language then d.pushAll? f else some d) ({} : Draft)
  return d.buffer

namespace Fragment

/-- What the buffer shows of a line of a fragment. -/
def blanked (line : String) : String := if isDirective line then "" else line

theorem text_slot (f : Fragment) (number : Nat) (line : String) :
    (f.slot number line).text = blanked line := by
  rw [slot, blanked]
  split <;> rfl

theorem text_slots (f : Fragment) : f.slots.map (·.text) = f.lines.map blanked := by
  rw [slots, List.map_map]
  calc f.lines.zipIdx.map (Slot.text ∘ fun (line, i) => f.slot (i + 1) line)
      = f.lines.zipIdx.map (blanked ∘ Prod.fst) :=
        List.map_congr_left fun x _ => f.text_slot (x.2 + 1) x.1
    _ = f.lines.map blanked := by rw [← List.map_map, List.zipIdx_map_fst]

end Fragment

namespace Buffer

theorem origins_concat (all : List Slot) (s : Slot) :
    origins (all ++ [s]) =
      origins all ++ (s.origin.map fun o => ((all.length : Int) + 1, o)).toList := by
  rw [origins, List.zipIdx_append, List.filterMap_append, ← origins]
  simp only [List.zipIdx_singleton, Nat.zero_add, List.filterMap_cons, List.filterMap_nil]
  cases s.origin <;> rfl

/-- The places of a buffer do not go beyond its lines. -/
theorem le_length_of_mem_origins {all : List Slot} {line : Int}
    (h : line ∈ (origins all).map Prod.fst) : line ≤ all.length := by
  obtain ⟨⟨line, o⟩, he, rfl⟩ := List.mem_map.1 h
  obtain ⟨k, hk, s, hs, -⟩ := (mem_origins_iff all line o).1 he
  have hlt := (List.getElem?_eq_some_iff.1 hs).1
  show line ≤ all.length
  omega

end Buffer

namespace Draft

open Buffer (origins)

/-- A line is never refused: its place is behind all that have been entered. -/
theorem push?_ofSlots (all : List Slot) (f : Fragment) (number : Nat) (line : String) :
    (ofSlots all).push? f number line = some (ofSlots (all ++ [f.slot number line])) := by
  rw [push?]
  split
  · next hd =>
    rw [Fragment.slot_of_isDirective hd, ofSlots, ofSlots, Buffer.origins_concat]
    simp
  · next hd =>
    have hnew : (Assoc.ofList (origins all)).contains ((all.length : Int) + 1) = false := by
      rw [Assoc.contains, Assoc.keys, Assoc.entries_ofList _ (Buffer.nodup_lines_origins all),
        List.contains_eq_mem, decide_eq_false_iff_not]
      intro hmem
      have := Buffer.le_length_of_mem_origins hmem
      omega
    have hadd : LineMap.add? ⟨Assoc.ofList (origins all)⟩ ((all.length : Int) + 1)
        ⟨f.index, number⟩ = some ⟨Assoc.ofList (origins (all ++ [f.slot number line]))⟩ := by
      rw [LineMap.add?, if_neg (by simp [hnew]), Fragment.slot_of_not_isDirective hd,
        Buffer.origins_concat]
      simp [Assoc.ofList, Assoc.insertAll]
    have hplace : (((all.map (·.text)) ++ [line]).length : Int) = (all.length : Int) + 1 := by
      simp
    simp only [ofSlots, hplace, hadd, Fragment.slot_of_not_isDirective hd, List.map_append,
      List.map_cons, List.map_nil]
    rfl

/-- Steps that each fill some places fill, one after the other, all of them. -/
theorem foldlM_ofSlots {α : Type} {step : Draft → α → Option Draft} {filled : α → List Slot}
    (hstep : ∀ all a, step (ofSlots all) a = some (ofSlots (all ++ filled a))) (l : List α)
    (all : List Slot) :
    l.foldlM step (ofSlots all) = some (ofSlots (all ++ l.flatMap filled)) := by
  induction l generalizing all with
  | nil => simp
  | cons a l ih =>
    rw [List.foldlM_cons, hstep, Option.bind_eq_bind, Option.bind_some, ih, List.flatMap_cons,
      List.append_assoc]

theorem pushAll?_ofSlots (all : List Slot) (f : Fragment) :
    (ofSlots all).pushAll? f = some (ofSlots (all ++ f.slots)) := by
  have hslots : f.lines.zipIdx.flatMap (fun x => [f.slot (x.2 + 1) x.1]) = f.slots := by
    rw [Fragment.slots, List.map_eq_flatMap]
  rw [pushAll?, ← hslots]
  exact foldlM_ofSlots (fun all x => push?_ofSlots all f (x.2 + 1) x.1) _ all

end Draft

namespace Buffer

/-- Joining line by line refuses no line and gives the buffer. -/
theorem join?_eq (fragments : List Fragment) (language : String) :
    join? fragments language = some (ofFragments fragments language) := by
  have hslots : fragments.flatMap (fun f => if f.isTarget language then f.slots else []) =
      slots fragments language := by
    rw [slots]
    induction fragments with
    | nil => rfl
    | cons f rest ih =>
      rw [List.flatMap_cons, ih, List.filter_cons]
      split
      · rw [List.flatMap_cons]
      · rw [List.nil_append]
  have hjoined : fragments.foldlM (fun d f => if f.isTarget language then d.pushAll? f else some d)
      (Draft.ofSlots []) = some (Draft.ofSlots (slots fragments language)) := by
    rw [← hslots, ← List.nil_append (fragments.flatMap _)]
    refine Draft.foldlM_ofSlots (fun all f => ?_) fragments []
    split
    · exact Draft.pushAll?_ofSlots all f
    · rw [List.append_nil]
  have hstart : ({} : Draft) = Draft.ofSlots [] := rfl
  rw [join?, hstart, hjoined]
  rfl

/-! ## Reading the layout -/

/-- Line `k` of the buffer stands for line `l` of a target fragment, whatever that line is. All
lines count from zero. -/
def StandsFor (fragments : List Fragment) (language : String) (k : Int) (f : Fragment) (l : Nat)
    (line : String) : Prop :=
  ∃ before after, targets fragments language = before ++ f :: after ∧
    k = ((before.flatMap (·.lines)).length + l : Nat) ∧ f.lines[l]? = some line

/-- How a buffer shows the target fragments, and what its line map says. -/
structure LaidOut (fragments : List Fragment) (language : String) (b : Buffer) : Prop where
  /-- The lines of the target fragments stand one behind the other, with directives blanked. -/
  shown : b.lines = (targets fragments language).flatMap fun f => f.lines.map Fragment.blanked
  /-- The map knows the line of a fragment that a line of the buffer came from, counted from one. -/
  known : ∀ k o, b.map.resolve k = some o ↔
    ∃ f l, CameFrom fragments language (k - 1) f l ∧ o = ⟨f.index, (l : Int) + 1⟩
  /-- It knows all lines but those that the buffer does not have, and directives. -/
  unknown : ∀ k, b.map.resolve k = none ↔ k < 1 ∨ (b.lines.length : Int) < k ∨
    ∃ f l line, StandsFor fragments language (k - 1) f l line ∧ Fragment.isDirective line = true
  /-- Its entries are in the order of the buffer. -/
  ascending : b.map.origins.keys.Pairwise (· < ·)

variable {fragments : List Fragment} {language : String}

theorem cameFrom_iff (k : Int) (f : Fragment) (l : Nat) : CameFrom fragments language k f l ↔
    ∃ line, StandsFor fragments language k f l line ∧ ¬ Fragment.isDirective line = true := by
  constructor
  · rintro ⟨before, after, line, hsplit, hk, hline, hd⟩
    exact ⟨line, ⟨before, after, hsplit, hk, hline⟩, hd⟩
  · rintro ⟨line, ⟨before, after, hsplit, hk, hline⟩, hd⟩
    exact ⟨before, after, line, hsplit, hk, hline, hd⟩

/-- A line of the buffer stands for one line. -/
theorem exists_standsFor_iff (k : Int) : (∃ f l line, StandsFor fragments language k f l line) ↔
    0 ≤ k ∧ k < ((slots fragments language).length : Int) := by
  have hslot : ∀ n : Nat, (∃ f l line, StandsFor fragments language n f l line) ↔
      n < (slots fragments language).length := by
    intro n
    constructor
    · rintro ⟨f, l, line, before, after, hsplit, hk, hline⟩
      have hslot := (getElem?_slots_eq_some_iff fragments language n _).2
        ⟨before, f, after, l, line, hsplit, by exact_mod_cast hk, hline, rfl⟩
      exact (List.getElem?_eq_some_iff.1 hslot).1
    · intro hlt
      obtain ⟨before, f, after, l, line, hsplit, hk, hline, -⟩ :=
        (getElem?_slots_eq_some_iff fragments language n _).1 (List.getElem?_eq_getElem hlt)
      exact ⟨f, l, line, before, after, hsplit, by exact_mod_cast hk, hline⟩
  constructor
  · rintro ⟨f, l, line, h⟩
    have hnat : k = (k.toNat : Int) := by
      obtain ⟨before, after, -, hk, -⟩ := h
      omega
    rw [hnat] at h
    have := (hslot k.toNat).1 ⟨f, l, line, h⟩
    omega
  · rintro ⟨hnonneg, hlt⟩
    have hnat : k = (k.toNat : Int) := by omega
    rw [hnat]
    exact (hslot k.toNat).2 (by omega)

/-- A line of the buffer stands for one line only. -/
theorem StandsFor.text_eq {k : Int} {f f' : Fragment} {l l' : Nat} {line line' : String}
    (h : StandsFor fragments language k f l line)
    (h' : StandsFor fragments language k f' l' line') :
    f.slot (l + 1) line = f'.slot (l' + 1) line' := by
  obtain ⟨before, after, hsplit, hk, hline⟩ := h
  obtain ⟨before', after', hsplit', hk', hline'⟩ := h'
  have hslot := (getElem?_slots_eq_some_iff fragments language k.toNat _).2
    ⟨before, f, after, l, line, hsplit, by omega, hline, rfl⟩
  have hslot' := (getElem?_slots_eq_some_iff fragments language k.toNat _).2
    ⟨before', f', after', l', line', hsplit', by omega, hline', rfl⟩
  exact Option.some.inj (hslot.symm.trans hslot')

theorem text_slots (fragments : List Fragment) (language : String) :
    (slots fragments language).map Slot.text =
      (targets fragments language).flatMap fun f => f.lines.map Fragment.blanked := by
  rw [slots, List.map_flatMap]
  exact congrArg (fun g => (targets fragments language).flatMap g) (funext Fragment.text_slots)

/-- A line without an origin does not belong to the buffer or is a directive. -/
theorem resolve_eq_none_iff (k : Int) :
    (ofFragments fragments language).map.resolve k = none ↔
      k < 1 ∨ ((slots fragments language).length : Int) < k ∨
        ∃ f l line, StandsFor fragments language (k - 1) f l line ∧
          Fragment.isDirective line = true := by
  have hsome : (∃ o, (ofFragments fragments language).map.resolve k = some o) ↔
      ∃ f l line, StandsFor fragments language (k - 1) f l line ∧
        ¬ Fragment.isDirective line = true := by
    have hresolve := resolve_eq_some_iff fragments language (k - 1)
    rw [Int.sub_add_cancel] at hresolve
    simp only [hresolve, cameFrom_iff]
    constructor
    · rintro ⟨o, f, l, ⟨line, h⟩, -⟩
      exact ⟨f, l, line, h⟩
    · rintro ⟨f, l, line, h⟩
      exact ⟨_, f, l, ⟨line, h⟩, rfl⟩
  rw [← Option.not_isSome_iff_eq_none, Option.isSome_iff_exists, hsome]
  have hexists : (∃ f l line, StandsFor fragments language (k - 1) f l line) ↔ _ :=
    exists_standsFor_iff (k - 1)
  constructor
  · intro hnone
    by_cases hk : 0 ≤ k - 1 ∧ k - 1 < ((slots fragments language).length : Int)
    · obtain ⟨f, l, line, h⟩ := hexists.2 hk
      refine .inr (.inr ⟨f, l, line, h, ?_⟩)
      by_contra hd
      exact hnone ⟨f, l, line, h, hd⟩
    · omega
  · rintro (hk | hk | ⟨f, l, line, h, hd⟩) ⟨f', l', line', h', hd'⟩
    · have := hexists.1 ⟨f', l', line', h'⟩
      omega
    · have := hexists.1 ⟨f', l', line', h'⟩
      omega
    · have hsame := h.text_eq h'
      rw [Fragment.slot_of_isDirective hd, Fragment.slot_of_not_isDirective hd'] at hsame
      exact absurd (congrArg Slot.origin hsame) (by simp)

/-- Joining fragments, at least one of which is a target, refuses no line, and the buffer shows the
lines of the target fragments one behind the other, with directives blanked. Its line map knows,
in ascending order, where all its lines but the directives came from. -/
theorem buffer_laid_out (fragments : List Fragment) (language : String)
    (h : ∃ f ∈ fragments, f.isTarget language = true) :
    ∃ b, join? fragments language = some b ∧ b = ofFragments fragments language ∧
      LaidOut fragments language b := by
  refine ⟨_, join?_eq fragments language, rfl, ?_⟩
  have hne : slots fragments language ≠ [] := by
    obtain ⟨f, hf, htarget⟩ := h
    intro hnil
    have hlines := congrArg List.length (List.flatMap_eq_nil_iff.1 hnil f
      (List.mem_filter.2 ⟨hf, htarget⟩))
    rw [Fragment.length_slots, Fragment.lines, List.length_map, List.length_nil,
      List.length_eq_zero_iff] at hlines
    exact Text.splitAtChar_ne_nil _ _ hlines
  have hlines := lines_ofFragments hne
  refine ⟨by rw [hlines, text_slots], fun k o => ?_, fun k => ?_, ?_⟩
  · rw [← resolve_eq_some_iff, Int.sub_add_cancel]
  · rw [hlines, List.length_map, resolve_eq_none_iff]
  · rw [ofFragments, Assoc.keys, Assoc.entries_ofList _ (nodup_lines_origins _)]
    exact pairwise_lines_origins _

/-- Two cells of one number, the first with a carriage return, a directive behind blanks and an
empty last line, the second empty; between them a cell of text. -/
theorem buffer_laid_out_around_directives :
    let cells : List Fragment := [⟨3, "x = 1\r\n  %time f()\n", "python", "code"⟩,
      ⟨4, "# Title", "markdown", "markdown"⟩, ⟨3, "", "python", "code"⟩]
    ∃ b, join? cells "python" = some b ∧ b.text = "x = 1\n\n\n" ∧
      b.map.origins.entries = [(1, ⟨3, 1⟩), (3, ⟨3, 3⟩), (4, ⟨3, 1⟩)] ∧
      LaidOut cells "python" b := by
  intro cells
  obtain ⟨b, hjoin, rfl, hlaid⟩ := buffer_laid_out cells "python" (by decide +kernel)
  exact ⟨_, hjoin, by decide +kernel, by decide +kernel, hlaid⟩

end Buffer

end Overseer
