import Mathlib.Data.List.Forall2
import Mathlib.Data.List.Nodup
import Overseer.Fragment.Rebase
import Overseer.Notebook
import Overseer.Proofs.Maps
import Overseer.Proofs.Splitting

set_option autoImplicit false

/-! # Findings on joined fragments go back to the lines they came from

A buffer is joined from the lines of the target fragments, and a finding about the buffer is
moved back to a fragment. `CameFrom` says where a line of the buffer came from without
speaking of line maps: the lines of the target fragments stand one behind the other, so a line
is found by counting. The line map agrees with this count (`resolve_eq_some_iff`), and the
text of the buffer, cut at its line feeds, shows the line (`lines_of_cameFrom`). From the two
follows what moving does to a list of findings. -/

namespace Overseer

namespace Text

theorem mem_of_mem_dropEndWhile {α : Type} {p : α → Bool} {l : List α} {a : α}
    (h : a ∈ dropEndWhile p l) : a ∈ l := by
  simp only [dropEndWhile, List.mem_reverse] at h
  exact List.mem_reverse.1 ((List.dropWhile_sublist p).mem h)

end Text

/-! ## Where a line of the buffer came from -/

namespace Fragment

theorem lf_not_mem_of_mem_lines {f : Fragment} {line : String} (h : line ∈ f.lines) :
    '\n' ∉ line.toList := by
  simp only [lines, List.mem_map] at h
  obtain ⟨piece, hpiece, rfl⟩ := h
  intro hlf
  rw [String.toList_ofList] at hlf
  exact Text.not_mem_of_mem_splitAtChar hpiece (Text.mem_of_mem_dropEndWhile hlf)

@[simp] theorem length_slots (f : Fragment) : f.slots.length = f.lines.length := by
  simp [slots]

theorem getElem?_slots (f : Fragment) (l : Nat) :
    f.slots[l]? = f.lines[l]?.map fun line => f.slot (l + 1) line := by
  simp [slots, Function.comp_def]

theorem slot_of_isDirective {f : Fragment} {number : Nat} {line : String}
    (h : isDirective line = true) : f.slot number line = ⟨"", none⟩ := by
  rw [slot, if_pos h]

theorem slot_of_not_isDirective {f : Fragment} {number : Nat} {line : String}
    (h : ¬ isDirective line = true) : f.slot number line = ⟨line, some ⟨f.index, number⟩⟩ := by
  rw [slot, if_neg h]

end Fragment

namespace Buffer

/-- The fragments that are joined. -/
def targets (fragments : List Fragment) (language : String) : List Fragment :=
  fragments.filter (·.isTarget language)

/-- Line `k` of the buffer came from line `l` of a target fragment, which is no directive. All
lines count from zero; in front of the fragment stand the lines of the targets before it. -/
def CameFrom (fragments : List Fragment) (language : String) (k : Int) (f : Fragment) (l : Nat) :
    Prop :=
  ∃ before after line, targets fragments language = before ++ f :: after ∧
    k = ((before.flatMap (·.lines)).length + l : Nat) ∧
    f.lines[l]? = some line ∧ ¬ Fragment.isDirective line = true

/-- The lines of a buffer. -/
def lines (b : Buffer) : List String :=
  (Text.splitAtChar '\n' b.text.toList).map String.ofList

/-- A finding starts and ends on lines that came from one and the same fragment. -/
def OnOneFragment (fragments : List Fragment) (language : String) (d : Finding) : Prop :=
  ∃ f l l', CameFrom fragments language d.line f l ∧ CameFrom fragments language d.endLine f l'

/-- A finding has been moved to the fragment that its lines came from. The new lines show, in
the fragment, what the old ones show in the buffer; all else is as it was. -/
def MovedTo (fragments : List Fragment) (language : String) (d : Finding) (r : Rebased) : Prop :=
  ∃ f ∈ targets fragments language, ∃ l l' : Nat,
    CameFrom fragments language d.line f l ∧ CameFrom fragments language d.endLine f l' ∧
    r = ⟨f.index, { d with line := l, endLine := l' }⟩ ∧
    (∃ line, (ofFragments fragments language).lines[d.line.toNat]? = some line ∧
      f.lines[l]? = some line) ∧
    ∃ line, (ofFragments fragments language).lines[d.endLine.toNat]? = some line ∧
      f.lines[l']? = some line

/-! ## Places in the buffer -/

/-- A place in lists joined end to end is a place in one of them. -/
theorem getElem?_flatMap_eq_some_iff {α β : Type} (g : α → List β) (l : List α) (k : Nat) (b : β) :
    (l.flatMap g)[k]? = some b ↔
      ∃ before a after i, l = before ++ a :: after ∧
        k = (before.flatMap g).length + i ∧ (g a)[i]? = some b := by
  induction l generalizing k with
  | nil => simp
  | cons x rest ih =>
    rw [List.flatMap_cons]
    by_cases hk : k < (g x).length
    · rw [List.getElem?_append_left hk]
      constructor
      · intro h
        exact ⟨[], x, rest, k, rfl, by simp, h⟩
      · rintro ⟨before, a, after, i, hl, hki, hb⟩
        cases before with
        | nil =>
          simp only [List.nil_append, List.cons.injEq] at hl
          obtain ⟨rfl, -⟩ := hl
          simpa [hki] using hb
        | cons y before =>
          simp only [List.cons_append, List.cons.injEq] at hl
          obtain ⟨rfl, -⟩ := hl
          rw [List.flatMap_cons, List.length_append] at hki
          omega
    · have hle : (g x).length ≤ k := Nat.le_of_not_lt hk
      rw [List.getElem?_append_right hle, ih]
      constructor
      · rintro ⟨before, a, after, i, rfl, hki, hb⟩
        refine ⟨x :: before, a, after, i, rfl, ?_, hb⟩
        rw [List.flatMap_cons, List.length_append]
        omega
      · rintro ⟨before, a, after, i, hl, hki, hb⟩
        cases before with
        | nil =>
          simp only [List.nil_append, List.cons.injEq] at hl
          obtain ⟨rfl, -⟩ := hl
          have : i < (g x).length := (List.getElem?_eq_some_iff.1 hb).1
          simp only [List.flatMap_nil, List.length_nil] at hki
          omega
        | cons y before =>
          simp only [List.cons_append, List.cons.injEq] at hl
          obtain ⟨rfl, rfl⟩ := hl
          rw [List.flatMap_cons, List.length_append] at hki
          exact ⟨before, a, after, i, rfl, by omega, hb⟩

theorem getElem?_slots_eq_some_iff (fragments : List Fragment) (language : String) (k : Nat)
    (s : Slot) :
    (slots fragments language)[k]? = some s ↔
      ∃ before f after l line, targets fragments language = before ++ f :: after ∧
        k = (before.flatMap (·.lines)).length + l ∧ f.lines[l]? = some line ∧
        s = f.slot (l + 1) line := by
  have hlength : ∀ before : List Fragment,
      (before.flatMap Fragment.slots).length = (before.flatMap (·.lines)).length := by
    intro before
    simp [List.length_flatMap, Fragment.length_slots]
  rw [slots, getElem?_flatMap_eq_some_iff]
  simp only [hlength, Fragment.getElem?_slots, Option.map_eq_some_iff]
  constructor
  · rintro ⟨before, f, after, l, hsplit, hk, line, hline, rfl⟩
    exact ⟨before, f, after, l, line, hsplit, hk, hline, rfl⟩
  · rintro ⟨before, f, after, l, line, hsplit, hk, hline, rfl⟩
    exact ⟨before, f, after, l, hsplit, hk, line, hline, rfl⟩

/-- A place of the buffer has an origin exactly if a line of a fragment came to stand there. -/
theorem origin_slots_iff (fragments : List Fragment) (language : String) (k : Nat) (o : Origin) :
    (∃ s, (slots fragments language)[k]? = some s ∧ s.origin = some o) ↔
      ∃ f l, CameFrom fragments language k f l ∧ o = ⟨f.index, (l : Int) + 1⟩ := by
  constructor
  · rintro ⟨s, hs, ho⟩
    obtain ⟨before, f, after, l, line, hsplit, hk, hline, rfl⟩ :=
      (getElem?_slots_eq_some_iff fragments language k s).1 hs
    by_cases hd : Fragment.isDirective line = true
    · rw [Fragment.slot_of_isDirective hd] at ho
      exact absurd ho (by simp)
    · rw [Fragment.slot_of_not_isDirective hd] at ho
      refine ⟨f, l, ⟨before, after, line, hsplit, by rw [hk], hline, hd⟩, ?_⟩
      simpa using ho.symm
  · rintro ⟨f, l, ⟨before, after, line, hsplit, hk, hline, hd⟩, rfl⟩
    refine ⟨_, (getElem?_slots_eq_some_iff fragments language k _).2
      ⟨before, f, after, l, line, hsplit, by exact_mod_cast hk, hline, rfl⟩, ?_⟩
    rw [Fragment.slot_of_not_isDirective hd]
    simp

theorem mem_origins_iff (all : List Slot) (line : Int) (o : Origin) :
    (line, o) ∈ origins all ↔
      ∃ k : Nat, line = (k : Int) + 1 ∧ ∃ s, all[k]? = some s ∧ s.origin = some o := by
  simp only [origins, List.mem_filterMap, Prod.exists, Option.map_eq_some_iff, Prod.mk.injEq]
  constructor
  · rintro ⟨s, k, hs, o', ho, rfl, rfl⟩
    exact ⟨k, rfl, s, by simpa [List.mem_zipIdx_iff_getElem?] using hs, ho⟩
  · rintro ⟨k, rfl, s, hs, ho⟩
    exact ⟨s, k, by simpa [List.mem_zipIdx_iff_getElem?] using hs, o, ho, rfl, rfl⟩

/-- Numbers given by place are pairwise different. -/
theorem nodup_places {α : Type} (l : List α) {number : Nat → Int}
    (h : Function.Injective number) : (l.zipIdx.map fun p => number p.2).Nodup := by
  have hplaces : (l.zipIdx.map Prod.snd).Nodup := by
    rw [List.zipIdx_map_snd]
    exact List.nodup_range'
  have hnumbers := hplaces.map h
  rwa [List.map_map] at hnumbers

/-- The lines of the buffer are entered in their order. -/
theorem pairwise_lines_origins (all : List Slot) :
    ((origins all).map Prod.fst).Pairwise (· < ·) := by
  have hkeys : (origins all).map Prod.fst =
      (all.zipIdx.filter fun p => p.1.origin.isSome).map fun p => (p.2 : Int) + 1 := by
    rw [origins]
    induction all.zipIdx with
    | nil => rfl
    | cons p rest ih =>
      obtain ⟨s, i⟩ := p
      cases ho : s.origin with
      | none => simpa [ho] using ih
      | some o => simpa [ho] using ih
  have hplaces : (all.zipIdx.map Prod.snd).Pairwise (· < ·) := by
    rw [List.zipIdx_map_snd]
    exact List.pairwise_lt_range'
  rw [hkeys, List.pairwise_map]
  refine List.Pairwise.filter _ ((List.pairwise_map.1 hplaces).imp fun {p q} hpq => ?_)
  omega

/-- No line of the buffer is entered twice. -/
theorem nodup_lines_origins (all : List Slot) : ((origins all).map Prod.fst).Nodup :=
  (pairwise_lines_origins all).imp fun h => Int.ne_of_lt h

/-- The line map knows the lines that came from fragments, and nothing else. -/
theorem resolve_eq_some_iff (fragments : List Fragment) (language : String) (line : Int)
    (o : Origin) :
    (ofFragments fragments language).map.resolve (line + 1) = some o ↔
      ∃ f l, CameFrom fragments language line f l ∧ o = ⟨f.index, (l : Int) + 1⟩ := by
  simp only [ofFragments, LineMap.resolve]
  rw [Assoc.get?_ofList_eq_some_iff _ (nodup_lines_origins _), mem_origins_iff]
  constructor
  · rintro ⟨k, hline, hs⟩
    obtain ⟨f, l, hcame, ho⟩ := (origin_slots_iff fragments language k o).1 hs
    have hk : line = (k : Int) := by omega
    exact ⟨f, l, hk ▸ hcame, ho⟩
  · rintro ⟨f, l, hcame, ho⟩
    have hcame' := hcame
    obtain ⟨before, after, -, -, hk, -, -⟩ := hcame'
    refine ⟨_, congrArg (· + 1) hk, ?_⟩
    exact (origin_slots_iff fragments language _ o).2 ⟨f, l, hk ▸ hcame, ho⟩

/-! ## What the buffer shows -/

theorem lf_not_mem_of_mem_slots {fragments : List Fragment} {language : String} {s : Slot}
    (h : s ∈ slots fragments language) : '\n' ∉ s.text.toList := by
  obtain ⟨k, hk⟩ := List.getElem?_of_mem h
  obtain ⟨before, f, after, l, line, -, -, hline, rfl⟩ :=
    (getElem?_slots_eq_some_iff fragments language k s).1 hk
  by_cases hd : Fragment.isDirective line = true
  · rw [Fragment.slot_of_isDirective hd]
    simp
  · rw [Fragment.slot_of_not_isDirective hd]
    exact Fragment.lf_not_mem_of_mem_lines (List.mem_of_getElem? hline)

/-- The text of a buffer with places, cut at its line feeds, is the texts of its places. -/
theorem lines_ofFragments {fragments : List Fragment} {language : String}
    (h : slots fragments language ≠ []) :
    (ofFragments fragments language).lines = (slots fragments language).map Slot.text := by
  have hne : (slots fragments language).map (fun s => s.text.toList) ≠ [] := by simpa using h
  have hlf : ∀ piece ∈ (slots fragments language).map (fun s => s.text.toList),
      '\n' ∉ piece := by
    intro piece hpiece
    obtain ⟨s, hs, rfl⟩ := List.mem_map.1 hpiece
    exact lf_not_mem_of_mem_slots hs
  have hcut := Text.splitAtChar_intercalate hne hlf
  simp only [lines, ofFragments, String.toList_intercalate, List.map_map]
  have hsep : "\n".toList = ['\n'] := rfl
  rw [hsep]
  simp only [Function.comp_def] at hcut ⊢
  rw [hcut, List.map_map]
  simp [Function.comp_def]

/-- A line that came from a fragment is shown by the buffer as it stands in the fragment. -/
theorem lines_of_cameFrom {fragments : List Fragment} {language : String} {k : Int}
    {f : Fragment} {l : Nat} (h : CameFrom fragments language k f l) :
    ∃ line, (ofFragments fragments language).lines[k.toNat]? = some line ∧
      f.lines[l]? = some line := by
  obtain ⟨before, after, line, hsplit, rfl, hline, hd⟩ := h
  have hslot := (getElem?_slots_eq_some_iff fragments language _ _).2
    ⟨before, f, after, l, line, hsplit, rfl, hline, rfl⟩
  have hne : slots fragments language ≠ [] := by
    intro hnil
    rw [hnil] at hslot
    simp at hslot
  refine ⟨line, ?_, hline⟩
  rw [lines_ofFragments hne, Int.toNat_natCast, List.getElem?_map, hslot,
    Fragment.slot_of_not_isDirective hd]
  rfl

/-! ## Moving findings -/

theorem mem_targets_of_cameFrom {fragments : List Fragment} {language : String} {k : Int}
    {f : Fragment} {l : Nat} (h : CameFrom fragments language k f l) :
    f ∈ targets fragments language := by
  obtain ⟨before, after, -, hsplit, -⟩ := h
  rw [hsplit]
  simp

/-- Among fragments with pairwise different numbers the number tells the fragment. -/
theorem eq_of_index_eq {fragments : List Fragment} {language : String}
    (hnodup : (fragments.map Fragment.index).Nodup) {f g : Fragment}
    (hf : f ∈ targets fragments language) (hg : g ∈ targets fragments language)
    (h : f.index = g.index) : f = g :=
  List.inj_on_of_nodup_map hnodup (List.mem_filter.1 hf).1 (List.mem_filter.1 hg).1 h

/-- A finding that is moved starts and ends on lines of one fragment. -/
theorem movedTo_of_rebase {fragments : List Fragment} {language : String}
    (hnodup : (fragments.map Fragment.index).Nodup) {d : Finding} {r : Rebased}
    (h : (ofFragments fragments language).map.rebase d = .ok r) :
    MovedTo fragments language d r := by
  simp only [LineMap.rebase] at h
  split at h
  · next start stop hstart hstop =>
    split at h
    · next hsame =>
      obtain ⟨f, l, hf, rfl⟩ := (resolve_eq_some_iff fragments language d.line start).1 hstart
      obtain ⟨g, l', hg, rfl⟩ := (resolve_eq_some_iff fragments language d.endLine stop).1 hstop
      have hfg : f = g := eq_of_index_eq hnodup (mem_targets_of_cameFrom hf)
        (mem_targets_of_cameFrom hg) hsame
      subst hfg
      have hr : r = ⟨f.index, { d with line := l, endLine := l' }⟩ := by
        simpa using h.symm
      exact ⟨f, mem_targets_of_cameFrom hf, l, l', hf, hg, hr, lines_of_cameFrom hf,
        lines_of_cameFrom hg⟩
    · exact absurd h (by simp)
  · exact absurd h (by simp)

/-- A finding on lines of one fragment is moved. -/
theorem rebase_of_onOneFragment {fragments : List Fragment} {language : String} {d : Finding}
    (h : OnOneFragment fragments language d) :
    ∃ r, (ofFragments fragments language).map.rebase d = .ok r := by
  obtain ⟨f, l, l', hstart, hstop⟩ := h
  have hs := (resolve_eq_some_iff fragments language d.line _).2 ⟨f, l, hstart, rfl⟩
  have he := (resolve_eq_some_iff fragments language d.endLine _).2 ⟨f, l', hstop, rfl⟩
  simp [LineMap.rebase, hs, he]

theorem onOneFragment_of_movedTo {fragments : List Fragment} {language : String} {d : Finding}
    {r : Rebased} (h : MovedTo fragments language d r) : OnOneFragment fragments language d := by
  obtain ⟨f, -, l, l', hstart, hstop, -⟩ := h
  exact ⟨f, l, l', hstart, hstop⟩

/-! ## The numbers of the cells of a notebook -/

theorem index_of_cell {language : String} {index : Nat} {v : Json} {c : Cell}
    (h : Notebook.cell language index v = .ok c) : c.index = index := by
  obtain ⟨kind, -, h⟩ := (bind_eq_ok_iff _ _ _).1 h
  obtain ⟨source, -, h⟩ := (bind_eq_ok_iff _ _ _).1 h
  obtain ⟨text, -, h⟩ := (bind_eq_ok_iff _ _ _).1 h
  cases h
  rfl

/-- The cells of a notebook are numbered in the order of display. -/
theorem nodup_index_of_cells {notebook : Json} {cells : List Cell}
    (h : Notebook.cells notebook = .ok cells) : (cells.map Cell.index).Nodup := by
  obtain ⟨language, -, h⟩ := (bind_eq_ok_iff _ _ _).1 h
  obtain ⟨member, -, h⟩ := (bind_eq_ok_iff _ _ _).1 h
  obtain ⟨values, -, h⟩ := (bind_eq_ok_iff _ _ _).1 h
  have hindex : ∀ (p : Json × Nat) (c : Cell), Notebook.cell language p.2 p.1 = .ok c →
      c.index = ((p.2 : Nat) : Int) := fun p c hc => index_of_cell hc
  rw [map_eq_of_mapM_ok hindex h]
  exact nodup_places values fun _ _ hab => Int.ofNat.inj hab

theorem nodup_index_of_targets {cells : List Cell} {language : String} {found : List Fragment}
    (hcells : (cells.map Cell.index).Nodup) (h : Cell.targets cells language = .ok found) :
    (found.map Fragment.index).Nodup := by
  have hindex : ∀ c f, Cell.toFragment language c = .ok f → f.index = c.index := by
    intro c f hf
    simp only [Cell.toFragment] at hf
    split at hf
    · obtain rfl : _ = f := by simpa using hf
      rfl
    · exact absurd hf (by simp)
  rw [map_eq_of_mapM_ok hindex h]
  exact hcells.sublist (List.filter_sublist.map _)

open Classical in
/-- Moving keeps, in order, the findings that start and end on lines of one and the same target
fragment, and only these; each goes to that fragment, to the lines that show there what its
lines show in the buffer. The fragments of a notebook are numbered apart, as this needs. -/
theorem rebaseAll_ofFragments (fragments : List Fragment) (language : String)
    (hnodup : (fragments.map Fragment.index).Nodup) (found : List Finding) :
    List.Forall₂ (MovedTo fragments language)
        (found.filter fun d => OnOneFragment fragments language d)
        ((ofFragments fragments language).map.rebaseAll found) ∧
      ∀ notebook cells targets, Notebook.cells notebook = .ok cells →
        Cell.targets cells language = .ok targets → (targets.map Fragment.index).Nodup := by
  refine ⟨?_, fun notebook cells targets hcells htargets =>
    nodup_index_of_targets (nodup_index_of_cells hcells) htargets⟩
  induction found with
  | nil => simp [LineMap.rebaseAll]
  | cons d rest ih =>
    cases hd : (ofFragments fragments language).map.rebase d with
    | ok r =>
      have hmoved := movedTo_of_rebase hnodup hd
      have hone := onOneFragment_of_movedTo hmoved
      simpa [LineMap.rebaseAll, hd, hone, Except.toOption] using ⟨hmoved, ih⟩
    | error e =>
      have hnot : ¬ OnOneFragment fragments language d := by
        intro hone
        obtain ⟨r, hr⟩ := rebase_of_onOneFragment hone
        rw [hd] at hr
        exact absurd hr (by simp)
      simpa [LineMap.rebaseAll, hd, hnot, Except.toOption] using ih

/-- A cell with a carriage return and a directive, a cell of text, and an empty cell: of three
findings the one inside the first cell is kept, the one on the directive and the one that
spans two cells are dropped. -/
theorem rebaseAll_three_cells :
    let cells : List Fragment := [⟨4, "x = 1\r\n%time f()\ny = x", "python", "code"⟩,
      ⟨5, "# Title", "markdown", "markdown"⟩, ⟨6, "", "python", "code"⟩]
    let found : List Finding := [⟨"f", 0, 2, 2, 1, "error", "a", none, none⟩,
      ⟨"f", 1, 0, 1, 0, "error", "b", none, none⟩, ⟨"f", 2, 0, 3, 0, "error", "c", none, none⟩]
    (ofFragments cells "python").map.rebaseAll found =
        [⟨4, ⟨"f", 0, 2, 2, 1, "error", "a", none, none⟩⟩] ∧
      ∃ d, d ∈ found ∧ MovedTo cells "python" d
        ⟨4, ⟨"f", 0, 2, 2, 1, "error", "a", none, none⟩⟩ := by
  intro cells found
  have hall : (ofFragments cells "python").map.rebaseAll found =
      [⟨4, ⟨"f", 0, 2, 2, 1, "error", "a", none, none⟩⟩] := by decide +kernel
  have hmoved := (rebaseAll_ofFragments cells "python" (by decide) found).1
  rw [hall] at hmoved
  obtain ⟨d, rest, hd, -, hkept⟩ := List.forall₂_cons_right_iff.1 hmoved
  have hmem : d ∈ d :: rest := List.mem_cons_self ..
  rw [← hkept] at hmem
  exact ⟨hall, d, (List.mem_filter.1 hmem).1, hd⟩

end Buffer

end Overseer
