import Pascaline.Proofs.Build.Steps
import Pascaline.Proofs.Build.Stores

/-!
# One unit of a build

The ways in which a unit is taken from the store, compiled or passed over.
-/

namespace Pascaline.BuildM

variable {s s' : Build × Disk} {src : FoundSource}

-- Unifiers would run the binding of a file.
attribute [local irreducible] Bound.Module.ofFile

theorem reuse_spec {span : Journal.OpenSpan} {r : Bool × Journal.OpenSpan}
    (h : Yields (reuse src span) s r s') : s'.2 = s.2 ∧
    (r.1 = false ∧ Quiet s.1 s'.1 ∨
      ∃ b stored u, Quiet s.1 b ∧
        (UnitCache.load b.request.cache src.summary.name : StateM Disk _).run s.2 =
          (.ok stored, s.2) ∧
        stored.fresh src.summary.name src.summary.path src.summary.content (b.depsOf src) =
          .ok (some u) ∧
        Quiet (b.record { u with file := src.file }) s'.1) := by
  simp only [reuse, yields_bind, yields_get, yields_lift] at h
  obtain ⟨start, t₁, h₁, _, t, ⟨rfl, rfl⟩, stored, t₂, ⟨h₂, hload⟩, h⟩ := h
  have hstart := silent_now h₁
  have hdisk : t₂.2 = s.2 := (UnitCache.load_run hload).1.trans hstart.disk
  split at h
  · exact absurd h yields_throw
  case h_2 stored =>
  split at h
  case h_1 =>
    simp only [yields_bind, yields_modify, yields_pure] at h
    obtain ⟨_, t₃, h₃, _, _, rfl, rfl, rfl⟩ := h
    have hnow := silent_now h₃
    refine ⟨hnow.disk.trans hdisk, .inl ⟨rfl, hstart.quiet.trans (h₂ ▸ hnow.quiet.trans ?_)⟩⟩
    exact ⟨rfl, rfl, rfl, rfl, rfl, rfl, rfl, rfl⟩
  case h_2 =>
    obtain ⟨rfl, rfl⟩ := yields_pure.mp h
    exact ⟨hdisk, .inl ⟨rfl, h₂ ▸ hstart.quiet⟩⟩
  case h_3 u hfresh =>
    rw [hstart.disk, hdisk] at hload
    simp only [yields_bind, yields_modify, yields_modifyGet] at h
    obtain ⟨_, _, rfl, _, _, ⟨rfl, rfl⟩, h⟩ := h
    have hlast : ∀ {b'}, Quiet (t₂.1.record { u with file := src.file }) b' →
        ∃ b stored u, Quiet s.1 b ∧
          (UnitCache.load b.request.cache src.summary.name : StateM Disk _).run s.2 =
            (.ok stored, s.2) ∧
          stored.fresh src.summary.name src.summary.path src.summary.content (b.depsOf src) =
            .ok (some u) ∧
          Quiet (b.record { u with file := src.file }) b' := fun hquiet =>
      ⟨t.1, stored, u, hstart.quiet, hload, hfresh, h₂ ▸ hquiet⟩
    split at h
    · obtain ⟨-, rfl⟩ := yields_pure.mp h
      exact ⟨hdisk, .inr (hlast (quiet_publish _ _))⟩
    · simp only [yields_bind, yields_modify, yields_pure] at h
      obtain ⟨_, t₄, h₄, _, _, rfl, -, rfl⟩ := h
      have hnow := silent_now h₄
      refine ⟨hnow.disk.trans hdisk, .inr (hlast (((quiet_publish _ _).trans hnow.quiet).trans ?_))⟩
      dsimp only
      refine Quiet.trans ?_ (quiet_ends _ _ _ _ _)
      exact ⟨rfl, rfl, rfl, rfl, rfl, rfl, rfl, rfl⟩

/-- A source has errors when it is bound, and is broken, or a unit is made of it, taken in and
stored. -/
theorem compileSource_spec {tree : Tree.File} {u : PUnit}
    (h : Yields (compileSource src tree) s u s') :
    ∃ b b₁ r, Quiet s.1 b ∧ b.bindSource src tree = .ok (r, b₁) ∧
      ((r.errors ≠ [] ∧ s'.2 = s.2 ∧
        ∃ b₂ first, Quiet b₁ b₂ ∧ s'.1 = b₂.markBroken src.summary.name first) ∨
      (r.errors = [] ∧ ∃ b₂ v b₃, Quiet b₁ b₂ ∧ b₂.lowerSource src r.module = .ok v ∧
        Quiet b₂ b₃ ∧ Yields (persist src.summary.path v) (b₃.record v, s.2) u s')) := by
  simp only [compileSource, yields_bind, yields_modify, yields_step] at h
  obtain ⟨_, _, rfl, start, t₂, h₂, r, t₃, ⟨hbind, hdisk₃⟩, bound, t₄, h₄, h⟩ := h
  have hbefore : Silent s t₂ := (silent_of_quiet (quiet_begins _ _ _ _)).trans (silent_now h₂)
  have hbound := silent_now h₄
  have hdisk : t₄.2 = s.2 := hbound.disk.trans (hdisk₃.trans hbefore.disk)
  refine ⟨t₂.1, t₃.1, r, hbefore.quiet, hbind, ?_⟩
  split at h
  case isTrue herrors =>
    rw [yields_modify] at h
    subst h
    refine .inl ⟨by simpa using herrors, hdisk, _, _, ?_, rfl⟩
    exact hbound.quiet.trans (quiet_ends _ _ _ _ _)
  case isFalse herrors =>
    simp only [yields_bind, yields_modify, yields_step, yields_modifyGet] at h
    obtain ⟨_, _, rfl, v, ⟨b₆, d₆⟩, ⟨hlower, hdisk₆⟩, _, t₇, h₇, _, _, rfl, _, _, ⟨rfl, rfl⟩, h⟩ := h
    split at h
    · exact absurd h yields_throw
    simp only [yields_bind, yields_modify] at h
    obtain ⟨_, _, rfl, h⟩ := h
    dsimp only at hlower hdisk₆
    cases hv : (t₄.1.begins src.summary.path .lower (bound - start)).lowerSource src r.module with
    | error e =>
      rw [hv] at hlower
      cases hlower
    | ok w =>
      rw [hv] at hlower
      cases hlower
      have hnow := silent_now h₇
      have hdisk₇ : t₇.2 = s.2 := hnow.disk.trans (hdisk₆.trans hdisk)
      refine .inr ⟨by simpa using herrors, _, v, _,
        hbound.quiet.trans (quiet_begins _ _ _ _), hv, ?_, hdisk₇ ▸ h⟩
      exact (hnow.quiet.trans (quiet_ends _ _ _ _ _)).trans (quiet_publish _ v)

/-- A unit is passed over because it or a unit it uses is broken, or it is taken from the store or
compiled. -/
theorem compileUnit_spec {root : Nat} {slot : GraphSlot} {u : PUnit}
    (h : Yields (compileUnit root slot src) s u s') :
    (∃ b first, Quiet s.1 b ∧ Silent (b.markBroken src.summary.name first, s.2) s' ∧
      (slot.broken ∨ src.failed ∨ ∃ use ∈ src.summary.uses, b.isBroken use.name)) ∨
    ∃ tree span t reused t₁, src.tree = some tree ∧ src.failed = false ∧ Silent s t ∧
      Yields (reuse src span) t reused t₁ ∧
      (reused.1 = true ∧ Silent t₁ s' ∨
        ∃ t₂, Yields (compileSource src tree) t₁ () t₂ ∧ Silent t₂ s') := by
  obtain ⟨span, t, ⟨a, sp, detail⟩, t', hopen, hbody, -, hclose⟩ := yields_inSpan h
  simp only [yields_bind, yields_get] at hbody
  obtain ⟨_, t, ⟨rfl, rfl⟩, hbody⟩ := hbody
  have hpass : ∀ {first}, t' = (t.1.markBroken src.summary.name first, t.2) →
      (slot.broken ∨ src.failed ∨ ∃ use ∈ src.summary.uses, t.1.isBroken use.name) →
      ∃ b first, Quiet s.1 b ∧ Silent (b.markBroken src.summary.name first, s.2) s' ∧
      (slot.broken ∨ src.failed ∨ ∃ use ∈ src.summary.uses, b.isBroken use.name) := by
    rintro first rfl hwhy
    exact ⟨t.1, first, hopen.quiet, hopen.disk ▸ hclose, hwhy⟩
  split at hbody
  case h_2 htree =>
    simp only [yields_bind, yields_set, yields_pure] at hbody
    obtain ⟨_, _, rfl, -, rfl⟩ := hbody
    exact .inl (hpass rfl (.inr (.inl (by simp [FoundSource.failed, htree]))))
  case h_1 tree htree =>
  split at hbody
  case isTrue hbroken =>
    simp only [yields_bind, yields_set, yields_pure] at hbody
    obtain ⟨_, _, rfl, -, rfl⟩ := hbody
    rw [Bool.or_eq_true] at hbroken
    exact .inl (hpass rfl (hbroken.imp_right .inl))
  case isFalse hsound =>
  rw [Bool.or_eq_true, not_or, Bool.not_eq_true, Bool.not_eq_true] at hsound
  split at hbody
  case isTrue huse =>
    simp only [yields_bind, yields_set, yields_pure] at hbody
    obtain ⟨_, _, rfl, -, rfl⟩ := hbody
    exact .inl (hpass rfl (.inr (.inr (by simpa using huse))))
  simp only [yields_bind] at hbody
  obtain ⟨⟨reused, span'⟩, t₁, hreuse, hbody⟩ := hbody
  refine .inr ⟨tree, span, t, _, t₁, htree, hsound.2, hopen, hreuse, ?_⟩
  split at hbody
  case isTrue =>
    simp only [yields_bind, yields_pure] at hbody
    obtain ⟨_, _, hcompile, -, rfl⟩ := hbody
    exact .inr ⟨_, hcompile, hclose⟩
  case isFalse hreused =>
    obtain ⟨-, rfl⟩ := yields_pure.mp hbody
    exact .inl ⟨by simpa using hreused, hclose⟩

end Pascaline.BuildM
