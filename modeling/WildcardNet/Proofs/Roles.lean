import Mathlib.Data.List.Nodup
import WildcardNet.Pass
/-!
# Labels with more than one role

Settings give labels their roles: epsilon and the wildcards are always there, the marks of a rule
may be, and an alphabet lists symbols. The check compares the marks with what is always there, and
then the alphabet with what is always there, but never the marks with the alphabet. Passing it
therefore keeps all roles apart exactly when no mark is a symbol of the alphabet.
-/

namespace WildcardNet

namespace Wildcards

/-- The labels that have a role in all settings. -/
def reserved (w : Wildcards) : List Label := [Label.epsilon, w.identity, w.other]

variable {w : Wildcards} {labels : List Label}

theorem nodup_reserved_iff : w.reserved.Nodup ↔ w.check = .ok () := by
  rw [check_eq_ok_iff]
  simp only [reserved, List.nodup_cons, List.mem_cons, List.not_mem_nil, or_false, not_or,
    not_false_eq_true, List.nodup_nil, and_true]
  constructor
  · rintro ⟨⟨hidentity, hother⟩, hne⟩
    exact ⟨Ne.symm hidentity, Ne.symm hother, hne⟩
  · rintro ⟨hidentity, hother, hne⟩
    exact ⟨⟨hidentity.symm, hother.symm⟩, hne⟩

theorem isConcrete_iff_not_mem_reserved {label : Label} :
    w.isConcrete label = true ↔ label ∉ w.reserved := by
  simp [isConcrete_eq_true_iff, reserved]

/-- More labels keep apart from each other and from the reserved ones when they are concrete. -/
theorem nodup_reserved_append_iff :
    (w.reserved ++ labels).Nodup ↔
      w.check = .ok () ∧ (∀ l ∈ labels, w.isConcrete l = true) ∧ labels.Nodup := by
  have hconcrete : w.reserved.Disjoint labels ↔ ∀ l ∈ labels, w.isConcrete l = true := by
    simp only [isConcrete_iff_not_mem_reserved]
    exact List.disjoint_right
  rw [List.nodup_append', nodup_reserved_iff, hconcrete, and_comm (a := labels.Nodup)]

end Wildcards

namespace Settings

/-- The marks of the rule, if there is one. -/
def marks (c : Settings) : List Label :=
  c.rule.elim [] fun r => [r.separator, r.hardEpsilon]

/-- The labels of the settings, each as often as it is given a role. -/
def roleLabels (c : Settings) : List Label := c.wildcards.reserved ++ c.marks ++ c.alphabet

variable {c : Settings}

theorem forall_check_rule_iff :
    (∀ r ∈ c.rule, r.check c.wildcards = .ok ()) ↔
      (∀ l ∈ c.marks, c.wildcards.isConcrete l = true) ∧ c.marks.Nodup := by
  cases hrule : c.rule with
  | none => simp [marks, hrule]
  | some r => simp [marks, hrule, RuleMarks.check_eq_ok_iff, and_assoc]

theorem exists_checkedAlphabet_iff :
    (∃ alphabet, c.checkedAlphabet = .ok alphabet) ↔
      (∀ l ∈ c.alphabet, c.wildcards.isConcrete l = true) ∧ c.alphabet.Nodup := by
  simp only [checkedAlphabet, checkAlphabet_eq_ok_iff]
  exact exists_eq_left'

theorem check_eq_ok_iff_parts :
    c.check = .ok () ↔
      c.wildcards.check = .ok () ∧ (∀ r ∈ c.rule, r.check c.wildcards = .ok ()) ∧
        ∃ alphabet, c.checkedAlphabet = .ok alphabet := by
  rw [check]
  cases c.wildcards.check with
  | error e => simp [bind, Except.bind]
  | ok =>
    have hlast : (c.checkedAlphabet >>= fun _ => pure ()) = Except.ok () ↔
        ∃ alphabet, c.checkedAlphabet = .ok alphabet := by
      cases c.checkedAlphabet <;> simp [bind, Except.bind, pure, Except.pure]
    rw [← hlast]
    cases c.rule with
    | none => simp [bind, Except.bind]
    | some r => cases hr : r.check c.wildcards <;> simp [bind, Except.bind, hr]

/-- The check compares the reserved labels with the marks, and then with the alphabet. -/
theorem check_eq_ok_iff :
    c.check = .ok () ↔
      (c.wildcards.reserved ++ c.marks).Nodup ∧ (c.wildcards.reserved ++ c.alphabet).Nodup := by
  rw [check_eq_ok_iff_parts, forall_check_rule_iff, exists_checkedAlphabet_iff,
    Wildcards.nodup_reserved_append_iff, Wildcards.nodup_reserved_append_iff]
  tauto

/-- The check passes if and only if the marks and the alphabet each keep apart from the reserved
labels. All roles are apart if and only if it passes and no mark is a symbol of the alphabet. -/
theorem nodup_roleLabels_iff (c : Settings) :
    (c.check = .ok () ↔
      (c.wildcards.reserved ++ c.marks).Nodup ∧ (c.wildcards.reserved ++ c.alphabet).Nodup) ∧
    (c.roleLabels.Nodup ↔ c.check = .ok () ∧ c.marks.Disjoint c.alphabet) := by
  refine ⟨check_eq_ok_iff, ?_⟩
  rw [check_eq_ok_iff, roleLabels, List.nodup_append', List.nodup_append', List.nodup_append',
    List.disjoint_append_left]
  tauto

/-- A separator that is also a symbol of the alphabet passes the check, and expanding spells out the
identity wildcard over it. -/
theorem check_accepts_separator_in_alphabet :
    let c : Settings := ⟨⟨100, 101⟩, some ⟨200, 201⟩, [1, 200]⟩
    let f : Network := ⟨#[⟨Weight.zero, [⟨100, 100, Weight.one, 1⟩]⟩, ⟨Weight.one, []⟩], some 0⟩
    c.check = .ok () ∧ ¬ c.roleLabels.Nodup ∧
      (Pass.expand.run c f).network.arcsFrom 0 =
        [⟨100, 100, Weight.one, 1⟩, ⟨1, 1, Weight.one, 1⟩, ⟨200, 200, Weight.one, 1⟩] := by
  intro c f
  exact ⟨by decide, by decide, by decide +kernel⟩

end Settings

end WildcardNet
