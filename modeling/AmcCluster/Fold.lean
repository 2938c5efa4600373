import Mathlib.Data.List.AList

/-! Loops of the modelled code as folds: a map written key by key, and a fallible loop
whose projection follows a pure fold. -/

namespace Amc

theorem lookup_foldl_keywise {κ β δ : Type} [DecidableEq κ] (g : AList (fun _ : κ => β) → κ → δ →
      AList (fun _ : κ => β)) (upd : Option β → δ → Option β)
    (hne : ∀ acc k v k', k' ≠ k → (g acc k v).lookup k' = acc.lookup k')
    (hself : ∀ acc k v, (g acc k v).lookup k = upd (acc.lookup k) v)
    (es : List (Sigma fun _ : κ => δ)) (hes : es.NodupKeys)
    (acc : AList (fun _ : κ => β)) (k : κ) :
    (es.foldl (fun d e => g d e.1 e.2) acc).lookup k =
      match es.dlookup k with
      | some v => upd (acc.lookup k) v
      | none => acc.lookup k := by
  induction es generalizing acc with
  | nil => rfl
  | cons e es ih =>
    obtain ⟨k', v⟩ := e
    obtain ⟨hnot, hes⟩ := List.nodupKeys_cons.mp hes
    rw [List.foldl_cons, ih hes]
    by_cases hk : k = k'
    · subst hk
      rw [List.dlookup_eq_none.mpr hnot, List.dlookup_cons_eq]
      exact hself acc k v
    · rw [List.dlookup_cons_ne _ _ hk, hne _ _ _ _ hk]

theorem lookup_foldl_local {κ β ε : Type} [DecidableEq κ]
    (step : AList (fun _ : κ => β) → ε → AList (fun _ : κ => β)) (key : ε → κ)
    (upd : Option β → ε → β)
    (hne : ∀ acc e k, k ≠ key e → (step acc e).lookup k = acc.lookup k)
    (hself : ∀ acc e, (step acc e).lookup (key e) = some (upd (acc.lookup (key e)) e))
    (es : List ε) (acc : AList (fun _ : κ => β)) (k : κ) :
    (es.foldl step acc).lookup k =
      (es.filter (key · = k)).foldl (fun o e => some (upd o e)) (acc.lookup k) := by
  induction es generalizing acc with
  | nil => rfl
  | cons e es ih =>
    rw [List.foldl_cons, ih, List.filter_cons]
    by_cases hk : key e = k
    · subst hk
      simp [hself]
    · simp [hk, hne acc e k (Ne.symm hk)]

theorem foldlM_simulate {σ τ α ε : Type} (f : σ → α → Except ε σ) (I : σ → Prop)
    (m : σ → τ) (u : τ → α → τ) :
    ∀ (l : List α), (∀ s a, a ∈ l → I s → ∃ s', f s a = .ok s' ∧ I s' ∧ m s' = u (m s) a) →
      ∀ s, I s → ∃ s', l.foldlM f s = .ok s' ∧ I s' ∧ m s' = l.foldl u (m s)
  | [], _, s, hs => ⟨s, rfl, hs, rfl⟩
  | a :: l, hstep, s, hs => by
    obtain ⟨s₁, h₁, hI₁, hm₁⟩ := hstep s a (List.mem_cons_self a l) hs
    obtain ⟨s₂, h₂, hI₂, hm₂⟩ := foldlM_simulate f I m u l
      (fun s a ha => hstep s a (List.mem_cons_of_mem _ ha)) s₁ hI₁
    refine ⟨s₂, ?_, hI₂, by rw [hm₂, hm₁, List.foldl_cons]⟩
    rw [List.foldlM_cons, h₁]
    exact h₂

theorem foldl_pair {α β γ : Type} (f : β → α → β) (g : γ → α → γ) (l : List α) (b : β) (c : γ) :
    l.foldl (fun acc a => (f acc.1 a, g acc.2 a)) (b, c) = (l.foldl f b, l.foldl g c) := by
  induction l generalizing b c with
  | nil => rfl
  | cons a l ih => exact ih (f b a) (g c a)

theorem foldlM_error_of_mem {σ α ε : Type} (f : σ → α → Except ε σ) {x : α}
    (hx : ∀ s, ∃ e, f s x = .error e) : ∀ (l : List α), x ∈ l → ∀ s, ∃ e, l.foldlM f s = .error e
  | y :: l, hmem, s => by
    rw [List.foldlM_cons]
    rcases List.mem_cons.mp hmem with rfl | hmem
    · obtain ⟨e, he⟩ := hx s
      exact ⟨e, by rw [he]; rfl⟩
    · cases f s y with
      | error e => exact ⟨e, rfl⟩
      | ok s' => exact foldlM_error_of_mem f hx l hmem s'

end Amc
