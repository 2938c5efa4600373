import AmcCluster.Cluster
import Mathlib.Order.MinMax

/-! `update`, gated by `IsSet()` and `shouldUpdate()`, and `shouldAutoRemove()`. Times are
seconds on Go's absolute clock (the zero `time.Time` is `0`); a `Duration` is an `int64` of
nanoseconds, which `time.Since` saturates and `time.Second * d` wraps. -/

namespace Amc.Models

def maxDuration : Int := 9223372036854775807

def minDuration : Int := -9223372036854775808

/-- An `int64` result: the two's complement residue of `x`, modulo `2⁶⁴`. -/
def wrapInt64 (x : Int) : Int :=
  (x + 9223372036854775808) % 18446744073709551616 - 9223372036854775808

/-- `time.Since(last)` at time `now`, as `Time.Sub` computes it: the difference in
nanoseconds, or the bound of `Duration` it passes. -/
def since (now last : Nat) : Int :=
  max minDuration (min maxDuration (((now : Int) - last) * 1000000000))

namespace Cluster

def shouldUpdate (c : Cluster) (now : Nat) : Bool :=
  decide (wrapInt64 (1000000000 * c.updateInterval) ≤ since now c.lastUpdate)

def shouldAutoRemove (c : Cluster) (inactiveDur : Int) (now : Nat) : Bool :=
  !c.permanent && decide (0 < inactiveDur) &&
    decide (wrapInt64 (inactiveDur * 1000000000) < since now c.lastPing)

def setUpdatedAt (c : Cluster) (tm : Nat) : Cluster := { c with lastUpdate := tm }

/-- `update()` called at time `start`. `refresh` stands for the phases from `updateCluster`
to `checkHealth`: the state they leave, and whether they all returned (`update` recovers a
panic in one of them, which skips the rest). Phases that return are followed by
`setUpdatedAt(time.Now())` at time `finish`. The flag says whether the phases ran. -/
def update (c : Cluster) (start finish : Nat) (refresh : Cluster → Cluster × Bool) :
    Cluster × Bool :=
  if !c.isSet then (c, false)
  else if !c.shouldUpdate start then (c, false)
  else
    let r := refresh c
    (if r.2 then r.1.setUpdatedAt finish else r.1, true)

end Cluster

theorem wrapInt64_of_lt {x : Int} (h₀ : -9223372036854775808 ≤ x) (h₁ : x < 9223372036854775808) :
    wrapInt64 x = x := by
  rw [wrapInt64, Int.emod_eq_of_lt (by omega) (by omega)]
  omega

theorem since_of_le {now last : Nat} (h : last ≤ now) :
    since now last = min maxDuration (((now : Int) - last) * 1000000000) := by
  refine max_eq_right (le_min_iff.mpr ⟨?_, ?_⟩) <;> simp only [minDuration, maxDuration] <;> omega

theorem since_nonneg {now last : Nat} (h : last ≤ now) : 0 ≤ since now last := by
  rw [since_of_le h, le_min_iff]
  simp only [maxDuration]
  omega

theorem since_mono {t t' last : Nat} (ht : t ≤ t') : since t last ≤ since t' last :=
  max_le_max le_rfl (min_le_min le_rfl (by omega))

namespace Cluster

variable {c : Cluster} {now : Nat}

theorem shouldUpdate_iff (hle : c.lastUpdate ≤ now)
    (h0 : minDuration ≤ 1000000000 * c.updateInterval)
    (hI : 1000000000 * c.updateInterval ≤ maxDuration) :
    c.shouldUpdate now ↔ c.lastUpdate + c.updateInterval ≤ now := by
  simp only [minDuration, maxDuration] at h0 hI
  have hw : wrapInt64 (1000000000 * c.updateInterval) = 1000000000 * c.updateInterval :=
    wrapInt64_of_lt h0 (by omega)
  rw [shouldUpdate, hw, since_of_le hle, decide_eq_true_iff, le_min_iff]
  exact ⟨fun h => by omega, fun h => ⟨hI, by omega⟩⟩

theorem shouldUpdate_of_neg (hle : c.lastUpdate ≤ now)
    (hneg : wrapInt64 (1000000000 * c.updateInterval) < 0) : c.shouldUpdate now :=
  decide_eq_true (hneg.le.trans (since_nonneg hle))

theorem shouldUpdate_mono {t t' : Nat} (h : c.shouldUpdate t) (ht : t ≤ t') :
    c.shouldUpdate t' := by
  rw [shouldUpdate, decide_eq_true_iff] at *
  exact h.trans (since_mono ht)

theorem shouldUpdate_congr {c' : Cluster} (hI : c'.updateInterval = c.updateInterval)
    (hl : c'.lastUpdate = c.lastUpdate) (t : Nat) : c'.shouldUpdate t = c.shouldUpdate t := by
  simp only [shouldUpdate, hI, hl]

theorem update_snd (start finish : Nat) (refresh : Cluster → Cluster × Bool) :
    (c.update start finish refresh).2 = (c.isSet && c.shouldUpdate start) := by
  unfold update
  cases c.isSet <;> cases c.shouldUpdate start <;> rfl

theorem update_ran {start finish : Nat} {refresh : Cluster → Cluster × Bool}
    (h : (c.update start finish refresh).2 = true) :
    c.isSet ∧ c.shouldUpdate start ∧
      (c.update start finish refresh).1 =
        if (refresh c).2 then (refresh c).1.setUpdatedAt finish else (refresh c).1 := by
  rw [update_snd, Bool.and_eq_true] at h
  simp [update, h.1, h.2]

theorem update_twice (refresh : Cluster → Cluster × Bool)
    (hkeep : ∀ c, (refresh c).1.updateInterval = c.updateInterval ∧
      (refresh c).1.lastUpdate = c.lastUpdate ∧ (refresh c).1.client = c.client)
    {s₁ f₁ s₂ f₂ : Nat} (hran : (c.update s₁ f₁ refresh).2 = true) (hs : s₁ ≤ f₁)
    (hf : f₁ ≤ s₂) :
    let c₁ := (c.update s₁ f₁ refresh).1
    ((refresh c).2 = false → (c₁.update s₂ f₂ refresh).2 = true) ∧
    ((refresh c).2 = true →
      (minDuration ≤ 1000000000 * c.updateInterval →
        1000000000 * c.updateInterval ≤ maxDuration →
        ((c₁.update s₂ f₂ refresh).2 = true ↔ f₁ + c.updateInterval ≤ s₂)) ∧
      (wrapInt64 (1000000000 * c.updateInterval) < 0 → (c₁.update s₂ f₂ refresh).2 = true)) := by
  obtain ⟨hset, hdue, he⟩ := update_ran hran
  obtain ⟨hI, hlast, hcl⟩ := hkeep c
  have hset' : (refresh c).1.isSet = true := by simpa only [isSet, hcl] using hset
  dsimp only
  rw [he]
  refine ⟨fun hok => ?_, fun hok => ?_⟩
  · rw [hok, if_neg Bool.false_ne_true, update_snd, hset', Bool.true_and,
      shouldUpdate_congr hI hlast]
    exact shouldUpdate_mono hdue (hs.trans hf)
  · rw [hok, if_pos rfl, update_snd,
      show ((refresh c).1.setUpdatedAt f₁).isSet = true from hset', Bool.true_and]
    have hI' : ((refresh c).1.setUpdatedAt f₁).updateInterval = c.updateInterval := hI
    refine ⟨fun h0 hmax => ?_, fun hneg => ?_⟩
    · have := @shouldUpdate_iff ((refresh c).1.setUpdatedAt f₁) s₂ hf (hI' ▸ h0) (hI' ▸ hmax)
      rwa [hI'] at this
    · exact @shouldUpdate_of_neg ((refresh c).1.setUpdatedAt f₁) s₂ hf (hI' ▸ hneg)

theorem update_twice_early :
    let refresh : Cluster → Cluster × Bool := fun c => (c, true)
    let c := newCluster "c1" 5 (some ⟨[newHost "10.0.0.1" 3000], true⟩) none []
    let c₁ := (c.update 100 102 refresh).1
    (∀ c, (refresh c).1.updateInterval = c.updateInterval ∧
      (refresh c).1.lastUpdate = c.lastUpdate ∧ (refresh c).1.client = c.client) ∧
    (c.update 100 102 refresh).2 = true ∧ 100 ≤ 102 ∧ 102 ≤ 103 ∧
    ((refresh c).2 = false → (c₁.update 103 104 refresh).2 = true) ∧
    ((refresh c).2 = true →
      (minDuration ≤ 1000000000 * c.updateInterval →
        1000000000 * c.updateInterval ≤ maxDuration →
        ((c₁.update 103 104 refresh).2 = true ↔ 102 + c.updateInterval ≤ 103)) ∧
      (wrapInt64 (1000000000 * c.updateInterval) < 0 → (c₁.update 103 104 refresh).2 = true)) :=
  ⟨fun _ => ⟨rfl, rfl, rfl⟩, by decide, by decide, by decide,
    @update_twice (newCluster "c1" 5 (some ⟨[newHost "10.0.0.1" 3000], true⟩) none [])
      (fun c => (c, true)) (fun _ => ⟨rfl, rfl, rfl⟩) 100 102 103 104 (by decide) (by decide)
      (by decide)⟩

theorem shouldAutoRemove_spec (c : Cluster) (inactiveDur : Int) {now : Nat}
    (hle : c.lastPing ≤ now) :
    (c.permanent = true → c.shouldAutoRemove inactiveDur now = false) ∧
    (inactiveDur ≤ 0 → c.shouldAutoRemove inactiveDur now = false) ∧
    (0 < inactiveDur → inactiveDur * 1000000000 ≤ maxDuration →
      (c.shouldAutoRemove inactiveDur now ↔ c.permanent = false ∧ c.lastPing + inactiveDur < now)) ∧
    (0 < inactiveDur → wrapInt64 (inactiveDur * 1000000000) < 0 →
      (c.shouldAutoRemove inactiveDur now ↔ c.permanent = false)) := by
  have hs := since_of_le hle
  refine ⟨fun hp => by simp [shouldAutoRemove, hp], fun h0 => ?_, fun h0 hI => ?_, fun h0 hneg => ?_⟩
  · simp [shouldAutoRemove, not_lt.mpr h0]
  · simp only [maxDuration] at hI
    have hw : wrapInt64 (inactiveDur * 1000000000) = inactiveDur * 1000000000 :=
      wrapInt64_of_lt (by omega) (by omega)
    simp only [shouldAutoRemove, hw, hs, h0, maxDuration, Bool.and_eq_true, Bool.not_eq_true',
      decide_eq_true_eq, lt_min_iff, true_and, and_true]
    exact ⟨fun ⟨hp, _, h⟩ => ⟨hp, by omega⟩, fun ⟨hp, h⟩ => ⟨hp, by omega, by omega⟩⟩
  · have hnn := since_nonneg hle
    simp only [shouldAutoRemove, Bool.and_eq_true, Bool.not_eq_true', decide_eq_true_eq]
    exact ⟨fun h => h.1.1, fun hp => ⟨⟨hp, h0⟩, hneg.trans_le hnn⟩⟩

theorem shouldAutoRemove_spec_minute :
    let c := newCluster "c1" 5 none none []
    let d : Int := 60
    c.lastPing ≤ 100 ∧
    (c.permanent = true → c.shouldAutoRemove d 100 = false) ∧
    (d ≤ 0 → c.shouldAutoRemove d 100 = false) ∧
    (0 < d → d * 1000000000 ≤ maxDuration →
      (c.shouldAutoRemove d 100 ↔ c.permanent = false ∧ (c.lastPing : Int) + d < (100 : Nat))) ∧
    (0 < d → wrapInt64 (d * 1000000000) < 0 → (c.shouldAutoRemove d 100 ↔ c.permanent = false)) :=
  ⟨by decide, shouldAutoRemove_spec (newCluster "c1" 5 none none []) 60 (by decide)⟩

end Cluster
end Amc.Models
