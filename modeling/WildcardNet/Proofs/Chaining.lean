import WildcardNet.Proofs.RoundTrips
/-!
# Passes one after the other

What a pass writes can be given to the next pass when the listing is dense. Passes that trim always
write a dense listing. The others keep the states and never take arcs away, so their listing is
dense if that of the network they were given is. A network that has just been read may have lost
lines, as a state has one final weight whatever the number of its final lines, and none at all when
the weight is that of no path. If no line of this kind was read, then the network has the lines that
were read, in another order, and its listing is dense as well.
-/

namespace WildcardNet

/-! ### Sizes -/

namespace Network

variable {f g : Network} {s : StateId}

theorem rank_le (keep : Array Bool) (s : Nat) : rank keep s ≤ s :=
  List.count_le_length.trans (List.length_take_le s _)

theorem size_trim_le (hf : f.WellFormed) {n : Nat} (h : ∀ s, f.Useful s → s < n) :
    f.trim.network.size ≤ n := by
  rcases trim_network_cases hf with hempty | ⟨start, hstart, -, heq⟩
  · rw [hempty]
    exact Nat.zero_le n
  · rw [heq]
    apply Nat.le_of_not_lt
    intro hlt
    -- Numbering anew never makes a number larger.
    obtain ⟨s, hs, hrank⟩ := exists_of_lt_size_restrict (size_useful f start) hlt
    apply Nat.lt_irrefl n
    calc
      n = rank (f.useful start) s := hrank
      _ ≤ s := rank_le _ s
      _ < n := h s ((getElem?_useful_iff hf hstart).1 hs)

/-- The state that doomed arcs are led to is not useful, so pruning adds no state. -/
theorem size_pruneArcs_le (hf : f.WellFormed) (doomed : Arc → Bool) :
    (f.pruneArcs doomed).network.size ≤ f.size := by
  rw [pruneArcs_network hf]
  apply size_trim_le (hf.sinkArcs doomed)
  intro s hs
  rcases hs.listed with harcs | hfinal
  · rw [arcsFrom_sinkArcs] at harcs
    apply Nat.lt_of_not_le
    intro hle
    exact harcs (by rw [arcsFrom_of_size_le hle, List.map_nil])
  · exact (isFinal_sinkArcs_iff.1 hfinal).lt_size

/-- The second network has the states of the first and no fewer arcs at any of them, and its arcs
lead nowhere else. -/
structure Widens (f g : Network) : Prop where
  start_eq : g.start = f.start
  size_eq : g.size = f.size
  final?_eq : ∀ s, g.final? s = f.final? s
  length_le : ∀ s, (f.arcsFrom s).length ≤ (g.arcsFrom s).length
  target_mem : ∀ s, ∀ b ∈ g.arcsFrom s, ∃ a ∈ f.arcsFrom s, b.target = a.target

theorem widens_mapArcs {φ : Arc → Arc} (hφ : ∀ a, (φ a).target = a.target) :
    f.Widens (f.mapArcs φ) where
  start_eq := rfl
  size_eq := size_mapArcs f φ
  final?_eq := final?_mapArcs f φ
  length_le s := by simp
  target_mem s b hb := by
    rw [arcsFrom_mapArcs] at hb
    obtain ⟨a, ha, rfl⟩ := List.mem_map.1 hb
    exact ⟨a, ha, hφ a⟩

theorem length_le_appendArcs (f : Network) (arcs : List PlacedArc) (s : StateId) :
    (f.arcsFrom s).length ≤ ((f.appendArcs arcs).arcsFrom s).length := by
  rcases Nat.lt_or_ge s f.size with hs | hs
  · rw [arcsFrom_appendArcs hs, List.length_append]
    exact Nat.le_add_right _ _
  · rw [arcsFrom_of_size_le hs]
    exact Nat.zero_le _

theorem widens_restore (hf : f.WellFormed) (w : Wildcards) : f.Widens (f.restore w).network where
  start_eq := start_restore hf
  size_eq := size_restore hf
  final?_eq := final?_restore hf
  length_le s := by
    rw [restore_network hf]
    refine le_trans ?_ (length_le_appendArcs _ _ s)
    rw [arcsFrom_mapArcs, List.length_map]
  target_mem s b hb := by
    obtain ⟨a, ha, hb⟩ := (mem_arcsFrom_restore_iff hf).1 hb
    exact ⟨a, ha, Wildcards.target_of_mem_restoredArcs hb⟩

theorem widens_expand (hf : f.WellFormed) (w : Wildcards) (alphabet : List Label) :
    f.Widens (f.expand w alphabet).network where
  start_eq := by rw [expand_network hf, start_appendArcs]
  size_eq := by rw [expand_network hf, size_appendArcs]
  final?_eq s := by rw [expand_network hf, final?_appendArcs]
  length_le s := by
    rw [expand_network hf]
    exact length_le_appendArcs f _ s
  target_mem s b hb := by
    rcases (mem_arcsFrom_expand_iff hf).1 hb with hb | ⟨a, ha, hb⟩
    · exact ⟨b, hb, rfl⟩
    · exact ⟨a, ha, (Wildcards.mem_expandArc_iff.1 hb).2.2⟩

end Network

/-! ### Passes -/

namespace Pass

/-- The pass ends with trimming. -/
def trims : Pass → Bool
  | .strip | .close | .synchronize => true
  | _ => false

variable {c : Settings} {f g : Network} {p : Pass}

theorem Yields.trimmed (h : p.Yields c f g) (hf : f.WellFormed) (hp : p.trims = true) :
    g.Trimmed := by
  cases h with
  | strip => exact .strip hf c.wildcards
  | close => exact .close hf c.wildcards _
  | synchronize => exact .synchronize hf _ c.wildcards
  | _ => cases hp

theorem Yields.widens (h : p.Yields c f g) (hf : f.WellFormed) (hp : p.trims = false) :
    f.Widens g := by
  cases h with
  | demote side => exact Network.widens_mapArcs (c.wildcards.target_demoteArc side)
  | restore => exact Network.widens_restore hf c.wildcards
  | expand => exact Network.widens_expand hf c.wildcards _
  | project side => exact Network.widens_mapArcs fun _ => rfl
  | blank side => exact Network.widens_mapArcs (c.wildcards.target_blankArc side)
  | _ => cases hp

theorem Yields.size_le (h : p.Yields c f g) (hf : f.WellFormed) : g.size ≤ f.size := by
  cases hp : p.trims with
  | false => exact Nat.le_of_eq (h.widens hf hp).size_eq
  | true =>
    cases h with
    | strip =>
      rw [Network.strip_network hf]
      exact Network.size_pruneArcs_le hf _
    | @close alphabet =>
      have hexpand := hf.expand c.wildcards alphabet
      rw [Network.close_network hf, Network.strip_network hexpand,
        ← (Network.widens_expand hf c.wildcards alphabet).size_eq]
      exact Network.size_pruneArcs_le hexpand _
    | @synchronize rule =>
      have hsize : (f.withLinks rule c.wildcards).size = f.size := by
        rw [Network.withLinks, Network.size_appendArcs, Network.size_sortArcs]
      rw [Network.synchronize_network hf, ← hsize]
      exact Network.size_pruneArcs_le (hf.withLinks rule c.wildcards) _
    | _ => cases hp

end Pass

namespace Listing

variable {f g : Network} {entries : List Entry} {s : StateId}

/-! ### Dense listings -/

theorem named_append (xs ys : List Entry) : named (xs ++ ys) = named xs + named ys := by
  induction xs with
  | nil => exact (Nat.zero_add _).symm
  | cons e xs ih => rw [List.cons_append, named, named, ih, Nat.add_assoc]

theorem named_perm {xs ys : List Entry} (h : xs.Perm ys) : named xs = named ys := by
  induction h with
  | nil => rfl
  | cons e _ ih => rw [named, named, ih]
  | swap e e' entries => exact Nat.add_left_comm _ _ _
  | trans _ _ ih ih' => exact ih.trans ih'

theorem named_flatMap_le {items : List StateId} {old new : StateId → List Entry}
    (h : ∀ s, named (old s) ≤ named (new s)) :
    named (items.flatMap old) ≤ named (items.flatMap new) := by
  induction items with
  | nil => exact Nat.le_refl _
  | cons s items ih =>
    rw [List.flatMap_cons, List.flatMap_cons, named_append, named_append]
    exact Nat.add_le_add (h s) ih

theorem named_entriesAt (f : Network) (s : StateId) :
    named (entriesAt f s) = 2 * (f.arcsFrom s).length + named (finalEntries f s) := by
  have harcs : ∀ arcs : List Arc,
      named (arcs.map fun a => Entry.arc ⟨s, a⟩) = 2 * arcs.length := by
    intro arcs
    induction arcs with
    | nil => rfl
    | cons a arcs ih =>
      rw [List.map_cons, named, ih, Entry.references, List.length_cons]
      omega
  rw [entriesAt, named_append, harcs]

theorem named_entriesAt_le (h : f.Widens g) (s : StateId) :
    named (entriesAt f s) ≤ named (entriesAt g s) := by
  have hfinal : finalEntries g s = finalEntries f s := by
    rw [finalEntries, finalEntries, h.final?_eq]
  have hlength := h.length_le s
  rw [named_entriesAt, named_entriesAt, hfinal]
  omega

theorem named_entriesOf_le (h : f.Widens g) : named (entriesOf f) ≤ named (entriesOf g) := by
  rw [entriesOf, entriesOf, h.start_eq]
  cases f.start with
  | none => exact Nat.le_refl _
  | some start =>
    have horder : stateOrder g start = stateOrder f start := by
      rw [stateOrder, stateOrder, h.size_eq]
    simp only [horder]
    exact named_flatMap_le (named_entriesAt_le h)

/-- Every line of the wider network names no larger state than some line of the other. -/
theorem exists_largestState_eq (h : f.Widens g) (hf : f.WellFormed) (hg : g.WellFormed)
    {e : Entry} (he : e ∈ entriesOf g) : ∃ e' ∈ entriesOf f, e.largestState = e'.largestState := by
  cases hstart : f.start with
  | none => simp [entriesOf, h.start_eq, hstart] at he
  | some start =>
    have hstart' : g.start = some start := h.start_eq.trans hstart
    rcases mem_entriesAt_iff.1 ((mem_entriesOf_iff hg hstart').1 he) with
      ⟨b, hb, heq⟩ | ⟨w, hw, hzero, heq⟩
    · obtain ⟨a, ha, htarget⟩ := h.target_mem _ b hb
      refine ⟨.arc ⟨e.source, a⟩, (arc_mem_entriesOf_iff hf hstart).2 ha, ?_⟩
      rw [heq]
      simp [Entry.largestState, Entry.source, htarget]
    · rw [h.final?_eq] at hw
      refine ⟨.final e.source w, (final_mem_entriesOf_iff hf hstart).2 ⟨hw, hzero⟩, ?_⟩
      rw [heq]
      rfl

theorem Dense.widen (hdense : Dense (entriesOf f)) (h : f.Widens g) (hf : f.WellFormed)
    (hg : g.WellFormed) : Dense (entriesOf g) := by
  intro e he
  obtain ⟨e', he', heq⟩ := exists_largestState_eq h hf hg he
  calc
    e.largestState = e'.largestState := heq
    _ ≤ named (entriesOf f) := hdense e' he'
    _ ≤ named (entriesOf g) := named_entriesOf_le h

/-! ### Lines that last -/

/-- No state has two final entries, and none has the weight of no path. -/
def Lasting (entries : List Entry) : Prop :=
  ∀ s, (entries.filterMap (Entry.finalAt s)).length ≤ 1 ∧ .final s Weight.zero ∉ entries

theorem count_arc (entries : List Entry) (p : PlacedArc) :
    entries.count (.arc p) = (entries.filterMap (Entry.arcAt p.source)).count p.arc := by
  rw [List.count_filterMap, List.count]
  apply List.countP_congr
  intro e _
  simp [Entry.arcAt_eq_some_iff]

theorem count_final (entries : List Entry) (s : StateId) (w : Weight) :
    entries.count (.final s w) = (entries.filterMap (Entry.finalAt s)).count w := by
  rw [List.count_filterMap, List.count]
  apply List.countP_congr
  intro e _
  simp [Entry.finalAt_eq_some_iff]

theorem Lasting.filterMap_finalAt (h : Lasting entries) (s : StateId) :
    ((describe entries).final? s).toList.filter (fun w => !w.isZero) =
      entries.filterMap (Entry.finalAt s) := by
  obtain ⟨hlength, hzero⟩ := h s
  rcases Nat.lt_or_ge s (stateBound entries) with hs | hs
  · rw [final?_describe hs]
    cases hfinals : entries.filterMap (Entry.finalAt s) with
    | nil => rfl
    | cons w rest =>
      have hrest : rest = [] := by simpa [hfinals] using hlength
      have hw : w.isZero = false := by
        apply Bool.eq_false_of_not_eq_true
        intro hw
        have hmem : w ∈ entries.filterMap (Entry.finalAt s) := hfinals ▸ List.mem_cons_self
        obtain ⟨e, he, hew⟩ := List.mem_filterMap.1 hmem
        rw [Entry.finalAt_eq_some_iff.1 hew, Weight.eq_zero_of_isZero hw] at he
        exact hzero he
      simp [hrest, hw]
  · -- No entry names the state.
    have hnone : (describe entries).final? s = none := by
      rw [Network.final?, Option.map_eq_none_iff, Array.getElem?_eq_none_iff]
      exact (size_describe entries).trans_le hs
    rw [hnone, eq_comm]
    apply List.filterMap_eq_nil_iff.2
    intro e he
    apply Entry.finalAt_of_source_ne
    intro hsource
    exact Nat.not_lt.2 hs (lt_stateBound_iff.2 ⟨e, he, hsource ▸ e.source_le_largestState⟩)

/-- The lines of a network that has been read are the lines read, in another order. -/
theorem Lasting.perm (h : Lasting entries) : (entriesOf (describe entries)).Perm entries := by
  cases hentries : entries with
  | nil => exact .nil
  | cons e rest =>
    rw [← hentries]
    have hstart : (describe entries).start = some e.source := by rw [hentries]; rfl
    have hf := wellFormed_describe entries
    -- An entry occurs as often as its arc or weight does at its state.
    rw [List.perm_iff_count]
    intro e
    cases e with
    | final s w =>
      rw [count_final, count_final, filterMap_finalAt_entriesOf hf hstart, h.filterMap_finalAt]
    | arc p =>
      rw [count_arc, count_arc, filterMap_arcAt_entriesOf hf hstart, arcsFrom_describe]

theorem Lasting.dense (h : Lasting entries) (hdense : Dense entries) :
    Dense (entriesOf (describe entries)) := by
  intro e he
  rw [named_perm h.perm]
  exact hdense e (h.perm.mem_iff.1 he)

/-! ### Written for the next pass -/

/-- When a pass succeeds on a network that has been read, what it writes can be read again if and
only if no state in it is larger than the number of times that it names one. This is so when the
pass trims, when the network could have been written and read back as it was, or when the lines read
were lasting. -/
theorem exists_reread_run_iff {c : Settings} {p : Pass} {text : ByteArray}
    (hread : read text = .ok f) (hrun : (p.run c f).result = .ok ()) :
    ((∃ g, reread (p.run c f).network = .ok g) ↔ Dense (entriesOf (p.run c f).network)) ∧
      (p.trims = true ∨ (∃ g, reread f = .ok g) ∨
          (∃ found, readEntries (lines text) = .ok found ∧
            Lasting (found.map NumberedEntry.entry)) →
        ∃ g, reread (p.run c f).network = .ok g) := by
  have hf := wellFormed_of_read hread
  have hsize := size_le_of_read hread
  have hyields := Pass.yields_of_run hrun
  have hg := hyields.wellFormed hf
  have hwritten := exists_reread_iff hg ((hyields.size_le hf).trans hsize)
  refine ⟨hwritten, ?_⟩
  intro hcases
  rw [hwritten]
  cases htrims : p.trims with
  | true =>
    have htrimmed := hyields.trimmed hf htrims
    exact dense_of_listed hg htrimmed.rooted htrimmed.listed
  | false =>
    apply Dense.widen _ (hyields.widens hf htrims) hf hg
    rcases hcases with htrue | hback | ⟨found, hfound, hlasting⟩
    · simp [htrims] at htrue
    · exact (exists_reread_iff hf hsize).1 hback
    · obtain ⟨found', hfound', hdense, rfl⟩ := readLines_eq_ok_iff.1 hread
      rw [hfound] at hfound'
      cases hfound'
      exact hlasting.dense hdense

/-- A network with a wildcard arc is read from lasting lines and expanded, and what is written can
be read. -/
theorem exists_reread_run_expanded :
    let c : Settings := ⟨⟨100, 101⟩, none, [5]⟩
    let text := "0 2 100 100\n2 1 7 8 -inf\n1 nan\n".toUTF8
    let f : Network := ⟨#[⟨Weight.zero, [⟨100, 100, Weight.one, 2⟩]⟩, ⟨.nan, []⟩,
      ⟨Weight.zero, [⟨7, 8, .infinite true, 1⟩]⟩], some 0⟩
    read text = .ok f ∧ (Pass.expand.run c f).result = .ok () ∧
      (∃ found, readEntries (lines text) = .ok found ∧
        Lasting (found.map NumberedEntry.entry)) ∧
      ∃ g, reread (Pass.expand.run c f).network = .ok g := by
  intro c text f
  have hread : read text = .ok f := by decide +kernel
  have hrun : (Pass.expand.run c f).result = .ok () := by decide +kernel
  have hlasting : ∃ found, readEntries (lines text) = .ok found ∧
      Lasting (found.map NumberedEntry.entry) := by
    refine ⟨[⟨1, .arc ⟨0, 100, 100, Weight.one, 2⟩⟩, ⟨2, .arc ⟨2, 7, 8, .infinite true, 1⟩⟩,
      ⟨3, .final 1 .nan⟩], by decide +kernel, ?_⟩
    intro s
    rcases eq_or_ne s 1 with rfl | hs
    · decide
    · simp [List.filterMap_cons, Entry.finalAt, Weight.zero, hs.symm]
  exact ⟨hread, hrun, hlasting, (exists_reread_run_iff hread hrun).2 (.inr (.inr hlasting))⟩

/-- Two final lines for one state are written as one, and the listing names a state too few times
to be read again. -/
theorem reread_run_repeated_final :
    let c : Settings := ⟨⟨100, 101⟩, none, []⟩
    let f : Network := ⟨#[⟨Weight.one, [⟨1, 1, Weight.one, 4⟩]⟩, {}, {}, {}, {}], some 0⟩
    let done := (Pass.demote .input).run c f
    read "0 4 1 1\n0\n0\n".toUTF8 = .ok f ∧ c.check = .ok () ∧ done.result = .ok () ∧
      write done.network = "0\t4\t1\t1\n0\n".toList ∧
      reread done.network = .error (.badLine 1 (.stateOutOfRange 4 3)) := by
  intro c f done
  refine ⟨by decide +kernel, by decide, rfl, by decide +kernel, by decide +kernel⟩

end Listing

end WildcardNet
