import Mathlib.Data.List.Forall2

-- What the success of a computation in `Except` says about its parts.
namespace DefectLog.Success

variable {ε α β γ : Type}

theorem bind_eq_ok {x : Except ε α} {f : α → Except ε β} {b : β} :
    (x >>= f) = .ok b ↔ ∃ a, x = .ok a ∧ f a = .ok b := by
  cases x <;> simp [bind, Except.bind]

theorem map_eq_ok {x : Except ε α} {f : α → β} {b : β} :
    (f <$> x) = .ok b ↔ ∃ a, x = .ok a ∧ f a = b := by
  cases x <;> simp [Functor.map, Except.map]

theorem pure_eq_ok {a b : α} : (pure a : Except ε α) = .ok b ↔ a = b := by
  simp [pure, Except.pure]

theorem bind_eq_error {x : Except ε α} {f : α → Except ε β} {e : ε} :
    (x >>= f) = .error e ↔ x = .error e ∨ ∃ a, x = .ok a ∧ f a = .error e := by
  cases x <;> simp [bind, Except.bind]

theorem map_eq_error {x : Except ε α} {f : α → β} {e : ε} : (f <$> x) = .error e ↔ x = .error e := by
  cases x <;> simp [Functor.map, Except.map]

theorem exists_of_isOk {x : Except ε α} (h : x.isOk = true) : ∃ a, x = .ok a := by
  cases x
  case error => cases h
  case ok a  => exact ⟨a, rfl⟩

theorem mapM_eq_ok {f : α → Except ε β} {xs : List α} {ys : List β} :
    xs.mapM f = .ok ys ↔ List.Forall₂ (fun x y => f x = .ok y) xs ys := by
  induction xs generalizing ys
  case nil => simp [pure, Except.pure, eq_comm]
  case cons x xs hi =>
    simp only [List.mapM_cons, bind_eq_ok, pure_eq_ok, hi, List.forall₂_cons_left_iff]
    constructor
    · rintro ⟨y, hy, ys, hys, rfl⟩
      exact ⟨y, ys, hy, hys, rfl⟩
    · rintro ⟨y, ys, hy, hys, rfl⟩
      exact ⟨y, hy, ys, hys, rfl⟩

theorem exists_of_mapM_error {f : α → Except ε β} {xs : List α} {e : ε} (h : xs.mapM f = .error e) :
    ∃ x ∈ xs, f x = .error e := by
  induction xs
  case nil => cases h
  case cons x xs hi =>
    simp only [List.mapM_cons, bind_eq_error] at h
    rcases h with h | ⟨_, -, h | ⟨_, -, h⟩⟩
    · exact ⟨x, List.mem_cons_self, h⟩
    · have ⟨y, hy, he⟩ := hi h
      exact ⟨y, List.mem_cons_of_mem _ hy, he⟩
    · cases h

theorem exists_of_mapM {f : α → Except ε β} {xs : List α} (h : ∀ x ∈ xs, ∃ y, f x = .ok y) : ∃ ys, xs.mapM f = .ok ys := by
  induction xs
  case nil => exact ⟨[], rfl⟩
  case cons x xs hi =>
    have ⟨⟨y, hy⟩, hs⟩ := List.forall_mem_cons.mp h
    have ⟨ys, hys⟩ := hi hs
    exact ⟨y :: ys, by rw [List.mapM_cons, hy, hys]; rfl⟩

theorem exists_of_mapM_option {f : α → Except ε β} {x : Option α} (h : ∀ a, x = some a → ∃ b, f a = .ok b) :
    ∃ y, x.mapM f = .ok y := by
  cases x
  case none   => exact ⟨none, rfl⟩
  case some a =>
    have ⟨b, hb⟩ := h a rfl
    exact ⟨some b, map_eq_ok.mpr ⟨b, hb, rfl⟩⟩

-- Two computations that fail in the same way on each element fail in the same way on a list.
theorem mapM_eq_error_of {f : α → Except ε β} {g : α → Except ε γ} {xs : List α} {e : ε}
    (hok : ∀ x a, f x = .ok a → ∃ b, g x = .ok b) (herror : ∀ x e, f x = .error e → g x = .error e)
    (h : xs.mapM f = .error e) : xs.mapM g = .error e := by
  induction xs
  case nil => cases h
  case cons x xs hi =>
    simp only [List.mapM_cons, bind_eq_error] at h ⊢
    rcases h with h | ⟨a, ha, h | ⟨_, -, h⟩⟩
    · exact .inl (herror x e h)
    · have ⟨b, hb⟩ := hok x a ha
      exact .inr ⟨b, hb, .inl (hi h)⟩
    · cases h

theorem forM_eq_ok {f : α → Except ε Unit} {xs : List α} : xs.forM f = .ok () ↔ ∀ x ∈ xs, f x = .ok () := by
  induction xs
  case nil          => exact ⟨fun _ => List.forall_mem_nil _, fun _ => rfl⟩
  case cons x xs hi =>
    rw [List.forM, bind_eq_ok, List.forall_mem_cons, ← hi]
    exact ⟨fun ⟨_, hx, hs⟩ => ⟨hx, hs⟩, fun ⟨hx, hs⟩ => ⟨(), hx, hs⟩⟩

theorem exists_of_forall₂ {R : α → β → Prop} {xs : List α} {ys : List β} (h : List.Forall₂ R xs ys) :
    ∀ y ∈ ys, ∃ x ∈ xs, R x y := by
  induction h
  case nil => simp
  case cons x y xs ys hr _ hi =>
    refine List.forall_mem_cons.mpr ⟨⟨x, List.mem_cons_self, hr⟩, fun z hz => ?_⟩
    have ⟨w, hw, hr⟩ := hi z hz
    exact ⟨w, List.mem_cons_of_mem _ hw, hr⟩

-- What each pair says about its second part.
theorem forall_mem_of_forall₂ {R : α → β → Prop} {P : β → Prop} {xs : List α} {ys : List β}
    (h : List.Forall₂ R xs ys) (hr : ∀ {x y}, R x y → P y) : ∀ y ∈ ys, P y :=
  fun y hy => have ⟨_, _, h⟩ := exists_of_forall₂ h y hy; hr h

-- What each two of the first parts say about their second parts.
theorem pairwise_of_forall₂ {R : α → β → Prop} {S : α → α → Prop} {T : β → β → Prop} {xs : List α} {ys : List β}
    (h : List.Forall₂ R xs ys) (hs : xs.Pairwise S) (ht : ∀ {x x' y y'}, R x y → R x' y' → S x x' → T y y') :
    ys.Pairwise T := by
  induction h
  case nil => exact .nil
  case cons x y xs ys hr hrs hi =>
    have ⟨hx, hxs⟩ := List.pairwise_cons.mp hs
    refine List.pairwise_cons.mpr ⟨fun z hz => ?_, hi hxs⟩
    have ⟨w, hw, hr'⟩ := exists_of_forall₂ hrs z hz
    exact ht hr hr' (hx w hw)

theorem getElem?_of_forall₂ {R : α → β → Prop} {xs : List α} {ys : List β} {i : Nat} {x : α}
    (h : List.Forall₂ R xs ys) (hx : xs[i]? = some x) : ∃ y, ys[i]? = some y ∧ R x y := by
  obtain ⟨hi, rfl⟩ := List.getElem?_eq_some_iff.mp hx
  have hl : i < ys.length := h.length_eq ▸ hi
  exact ⟨ys[i], List.getElem?_eq_getElem hl, h.get hi hl⟩

theorem length_eq_of_mapM {f : α → Except ε β} {xs : List α} {ys : List β} (h : xs.mapM f = .ok ys) :
    ys.length = xs.length :=
  (mapM_eq_ok.mp h).length_eq.symm

-- A list comes back as it was if each of its elements does.
theorem eq_of_mapM {f : α → Except ε α} {xs ys : List α} (hf : ∀ x ∈ xs, ∀ y, f x = .ok y → y = x)
    (h : xs.mapM f = .ok ys) : ys = xs := by
  induction xs generalizing ys
  case nil => exact (pure_eq_ok.mp h).symm
  case cons x xs hi =>
    have ⟨hx, hxs⟩ := List.forall_mem_cons.mp hf
    simp only [List.mapM_cons, bind_eq_ok, pure_eq_ok] at h
    obtain ⟨y, hy, ys, hys, rfl⟩ := h
    rw [hx y hy, hi hxs hys]

theorem mapM_option_eq_map {f : α → Except ε β} {g : α → β} {x : Option α} {y : Option β}
    (hf : ∀ {a b}, f a = .ok b → b = g a) (h : x.mapM f = .ok y) : y = x.map g := by
  cases x
  case none   => exact (pure_eq_ok.mp h).symm
  case some a =>
    obtain ⟨b, hb, rfl⟩ := map_eq_ok.mp h
    rw [hf hb]
    rfl

end DefectLog.Success
