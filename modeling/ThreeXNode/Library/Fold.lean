import Mathlib

namespace ThreeXNode.Library

universe u v

variable {α β σ τ : Type u} {ε : Type v}

@[simp] theorem Except.bind_eq_ok {x : Except ε α} {f : α → Except ε β} {b : β} :
    (x >>= f) = .ok b ↔ ∃ a, x = .ok a ∧ f a = .ok b := by
  cases x <;> simp [bind, Except.bind]

theorem Except.ok_bind {a : α} {f : α → Except ε β} : (.ok a >>= f : Except ε β) = f a := rfl

@[simp] theorem Except.pure_eq_ok {a b : α} : (pure a : Except ε α) = .ok b ↔ a = b := by
  simp [pure, Except.pure]

@[simp] theorem Except.throw_ne_ok {e : ε} {b : α} : (throw e : Except ε α) ≠ .ok b := by
  simp [throw, throwThe, MonadExceptOf.throw]

@[simp] theorem Except.guard_eq_ok {p : Prop} [Decidable p] {e : ε} {f : PUnit → Except ε α} {b : α} :
    ((if p then throw e else pure PUnit.unit : Except ε PUnit) >>= f) = .ok b ↔
      ¬p ∧ f PUnit.unit = .ok b := by
  by_cases h : p <;> simp [h, throw, throwThe, MonadExceptOf.throw, bind, Except.bind, pure, Except.pure]

def require (p : Prop) [Decidable p] (e : ε) : Except ε Unit := if p then .ok () else .error e

@[simp] theorem require_eq_ok {p : Prop} [Decidable p] {e : ε} {u : Unit} :
    require p e = .ok u ↔ p := by
  by_cases h : p <;> simp [require, h]

@[simp] theorem forM_eq_ok {f : α → Except ε Unit} {items : List α} {u : Unit} :
    forM items f = .ok u ↔ ∀ a ∈ items, f a = .ok () := by
  induction items with
  | nil => simp
  | cons a items ih =>
      have unit : (∃ x, f a = .ok x) ↔ f a = .ok () := ⟨fun ⟨_, h⟩ => h, fun h => ⟨(), h⟩⟩
      simp [List.forM_cons, ih, unit]

/-- A loop that may fail keeps what each of its passes keeps; `done` is what it has been through. -/
theorem foldlM_ok {f : σ → α → Except ε σ} (inv : List α → σ → Prop) {start stop : σ} {items : List α}
    (h : items.foldlM f start = .ok stop) (base : inv [] start)
    (pass : ∀ done a s t, a ∈ items → inv done s → f s a = .ok t → inv (done ++ [a]) t) :
    inv items stop := by
  suffices go : ∀ (rest done : List α) (s : σ), done ++ rest = items → inv done s →
      rest.foldlM f s = .ok stop → inv items stop from go items [] start rfl base h
  intro rest
  induction rest with
  | nil =>
      intro done s split held ended
      rw [List.append_nil] at split
      cases ended
      exact split ▸ held
  | cons a rest ih =>
      intro done s split held ended
      rw [List.foldlM_cons, Except.bind_eq_ok] at ended
      obtain ⟨t, one, ended⟩ := ended
      have here : a ∈ items := split ▸ List.mem_append_right done List.mem_cons_self
      exact ih (done ++ [a]) t (by simpa using split) (pass done a s t here held one) ended

/-- A loop that leaves the state `state done` once it has been through `done` ends in `state items`. -/
theorem foldlM_prefixes {f : σ → α → Except ε σ} {items : List α} (state : List α → σ)
    (pass : ∀ done a rest, items = done ++ a :: rest → f (state done) a = .ok (state (done ++ [a]))) :
    items.foldlM f (state []) = .ok (state items) := by
  suffices go : ∀ rest done, items = done ++ rest → rest.foldlM f (state done) = .ok (state items) from go items [] rfl
  intro rest
  induction rest with
  | nil =>
      intro done split
      rw [List.append_nil] at split
      exact split ▸ rfl
  | cons a rest ih =>
      intro done split
      rw [List.foldlM_cons, Except.bind_eq_ok]
      exact ⟨_, pass done a rest split, ih (done ++ [a]) (by simpa using split)⟩

theorem foldlM_passes {f : σ → α → Except ε σ} {items : List α} {start stop : σ}
    (h : items.foldlM f start = .ok stop) : ∀ a ∈ items, ∃ s t, f s a = .ok t := by
  refine foldlM_ok (fun done _ => ∀ a ∈ done, ∃ s t, f s a = .ok t) h (by simp) ?_
  intro done a s t _ before one b mem
  rcases List.mem_append.mp mem with earlier | here
  · exact before b earlier
  · rw [List.mem_singleton.mp here]
    exact ⟨s, t, one⟩

theorem foldlM_checked {f : σ → α → Except ε σ} {g : σ → α → σ} {check : α → Prop} {items : List α} {start stop : σ}
    (pass : ∀ s a t, f s a = .ok t ↔ check a ∧ t = g s a) :
    items.foldlM f start = .ok stop ↔ (∀ a ∈ items, check a) ∧ stop = items.foldl g start := by
  induction items generalizing start with
  | nil =>
      rw [List.foldlM_nil, List.foldl_nil, Except.pure_eq_ok]
      simp [eq_comm]
  | cons a items ih =>
      rw [List.foldlM_cons, Except.bind_eq_ok, List.foldl_cons]
      constructor
      · rintro ⟨t, first, rest⟩
        obtain ⟨own, rfl⟩ := (pass start a t).mp first
        obtain ⟨all, ended⟩ := ih.mp rest
        exact ⟨List.forall_mem_cons.mpr ⟨own, all⟩, ended⟩
      · rintro ⟨all, ended⟩
        obtain ⟨own, all⟩ := List.forall_mem_cons.mp all
        exact ⟨_, (pass start a _).mpr ⟨own, rfl⟩, ih.mpr ⟨all, ended⟩⟩

theorem foldl_keeps {f : σ → α → σ} (inv : List α → σ → Prop) {s : σ} (items : List α)
    (base : inv [] s) (pass : ∀ done a s, a ∈ items → inv done s → inv (done ++ [a]) (f s a)) :
    inv items (items.foldl f s) := by
  suffices go : ∀ (rest done : List α) (s : σ), done ++ rest = items → inv done s →
      inv items (rest.foldl f s) from go items [] s rfl base
  intro rest
  induction rest with
  | nil =>
      intro done s split held
      rw [List.append_nil] at split
      exact split ▸ held
  | cons a rest ih =>
      intro done s split held
      have here : a ∈ items := split ▸ List.mem_append_right done List.mem_cons_self
      exact ih (done ++ [a]) (f s a) (by simpa using split) (pass done a s here held)

theorem foldl_keeps_new {f : σ → α → σ} (inv : List α → σ → Prop) {s : σ} {items : List α} (distinct : items.Nodup)
    (base : inv [] s) (pass : ∀ done a s, a ∈ items → a ∉ done → inv done s → inv (done ++ [a]) (f s a)) :
    inv items (items.foldl f s) := by
  suffices go : ∀ (rest done : List α) (s : σ), done ++ rest = items → inv done s →
      inv items (rest.foldl f s) from go items [] s rfl base
  intro rest
  induction rest with
  | nil =>
      intro done s split held
      rw [List.append_nil] at split
      exact split ▸ held
  | cons a rest ih =>
      intro done s split held
      have new : a ∉ done := by
        intro before
        rw [← split, List.nodup_append] at distinct
        exact distinct.2.2 a before a List.mem_cons_self rfl
      have here : a ∈ items := split ▸ List.mem_append_right done List.mem_cons_self
      refine ih (done ++ [a]) (f s a) ?_ (pass done a s here new held)
      rw [← split, List.append_assoc, List.singleton_append]

theorem foldl_invariant {f : σ → α → σ} (inv : σ → Prop) {s : σ} {l : List α} (base : inv s)
    (pass : ∀ s, ∀ a ∈ l, inv s → inv (f s a)) : inv (l.foldl f s) :=
  foldl_keeps (fun _ s => inv s) l base fun _ a s here held => pass s a here held

theorem foldl_frame {f : σ → α → σ} (g : σ → τ) {start : σ} {items : List α}
    (pass : ∀ s, ∀ a ∈ items, g (f s a) = g s) : g (items.foldl f start) = g start :=
  foldl_invariant (fun s => g s = g start) rfl fun s a here held => (pass s a here).trans held

theorem mapM_forall₂ {f : α → Option β} {items : List α} {results : List β} (made : items.mapM f = some results) :
    List.Forall₂ (fun a b => f a = some b) items results := by
  induction items generalizing results with
  | nil =>
      cases made
      exact .nil
  | cons a items ih =>
      simp only [List.mapM_cons, Option.bind_eq_bind, Option.bind_eq_some_iff] at made
      obtain ⟨b, one, rest, more, made⟩ := made
      cases made
      exact .cons one (ih more)

theorem mapM_map {f : α → Option β} {g : β → σ} {h : α → σ} (share : ∀ a b, f a = some b → g b = h a) {items : List α}
    {results : List β} (made : items.mapM f = some results) : results.map g = items.map h := by
  have each := mapM_forall₂ made
  clear made
  induction each with
  | nil => rfl
  | cons one _ ih => rw [List.map_cons, List.map_cons, share _ _ one, ih]

theorem mapM_of_some {f : α → Option β} {g : α → β} {items : List α} (each : ∀ a ∈ items, f a = some (g a)) :
    items.mapM f = some (items.map g) := by
  induction items with
  | nil => rfl
  | cons a items ih =>
      rw [List.mapM_cons, each a List.mem_cons_self, ih fun b member => each b (List.mem_cons_of_mem _ member)]
      rfl

end ThreeXNode.Library
