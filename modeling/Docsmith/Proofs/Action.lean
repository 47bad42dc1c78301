/-
Actions as functions of the world: what each gives and what world it leaves (`Action.exec`), step by
step. `exec_bind_ok` takes a successful run apart.
-/
import Docsmith.World

namespace Docsmith

variable {ε α β : Type} {f : α → Except ε β} {xs : List α} {ys : List β}

theorem Except.bind_ok_iff {x : Except ε α} {b : β} :
    (x >>= f) = .ok b ↔ ∃ a, x = .ok a ∧ f a = .ok b := by
  cases x with
  | error e => simp [bind, Except.bind]
  | ok a => simp [bind, Except.bind]

theorem Except.pure_ok_iff {a b : α} : (pure a : Except ε α) = .ok b ↔ a = b := by
  simp [pure, Except.pure]

theorem Except.mem_of_mapM (h : xs.mapM f = .ok ys) {y : β} (hy : y ∈ ys) :
    ∃ x ∈ xs, f x = .ok y := by
  induction xs generalizing ys with
  | nil =>
    obtain rfl := Except.pure_ok_iff.1 h
    cases hy
  | cons x xs ih =>
    simp only [List.mapM_cons, Except.bind_ok_iff, Except.pure_ok_iff] at h
    obtain ⟨z, hz, zs, hzs, rfl⟩ := h
    rcases List.mem_cons.1 hy with rfl | hy
    · exact ⟨x, List.mem_cons_self, hz⟩
    · obtain ⟨x', hx', hf⟩ := ih hzs hy
      exact ⟨x', List.mem_cons_of_mem _ hx', hf⟩

theorem Except.exists_of_mapM (h : xs.mapM f = .ok ys) {x : α} (hx : x ∈ xs) :
    ∃ y ∈ ys, f x = .ok y := by
  induction xs generalizing ys with
  | nil => cases hx
  | cons z xs ih =>
    simp only [List.mapM_cons, Except.bind_ok_iff, Except.pure_ok_iff] at h
    obtain ⟨y, hy, ys', hys, rfl⟩ := h
    rcases List.mem_cons.1 hx with rfl | hx
    · exact ⟨y, List.mem_cons_self, hy⟩
    · obtain ⟨y', hy', hf⟩ := ih hys hx
      exact ⟨y', List.mem_cons_of_mem _ hy', hf⟩

theorem Except.mapM_ok (h : ∀ x ∈ xs, ∃ y, f x = .ok y) : ∃ ys, xs.mapM f = .ok ys := by
  induction xs with
  | nil => exact ⟨[], rfl⟩
  | cons x xs ih =>
    obtain ⟨y, hy⟩ := h x List.mem_cons_self
    obtain ⟨ys, hys⟩ := ih fun z hz => h z (List.mem_cons_of_mem _ hz)
    rw [List.mapM_cons]
    exact ⟨y :: ys, Except.bind_ok_iff.2 ⟨y, hy, Except.bind_ok_iff.2 ⟨ys, hys, rfl⟩⟩⟩

theorem Except.mapM_map {γ : Type} {ps : List γ} {text : γ → α} {read : γ → β}
    (h : ∀ p ∈ ps, f (text p) = .ok (read p)) : (ps.map text).mapM f = .ok (ps.map read) := by
  induction ps with
  | nil => rfl
  | cons p ps ih =>
    obtain ⟨hp, hps⟩ := List.forall_mem_cons.1 h
    rw [List.map_cons, List.mapM_cons, hp, ih hps]
    rfl

theorem Except.map_of_mapM {γ : Type} {g : β → γ} {k : α → γ} (h : xs.mapM f = .ok ys)
    (hf : ∀ x ∈ xs, ∀ y, f x = .ok y → g y = k x) : ys.map g = xs.map k := by
  induction xs generalizing ys with
  | nil =>
    obtain rfl := Except.pure_ok_iff.1 h
    rfl
  | cons x xs ih =>
    simp only [List.mapM_cons, Except.bind_ok_iff, Except.pure_ok_iff] at h
    obtain ⟨y, hy, ys', hys, rfl⟩ := h
    rw [List.map_cons, List.map_cons, hf x List.mem_cons_self y hy,
      ih hys fun x hx => hf x (List.mem_cons_of_mem _ hx)]

theorem Except.map_of_mapM_bind {γ δ : Type} {make : α → β → γ} {zs : List γ} {g : γ → δ}
    {k : α → δ} (h : xs.mapM (fun x => do pure (make x (← f x))) = .ok zs)
    (hf : ∀ x ∈ xs, ∀ y, f x = .ok y → g (make x y) = k x) : zs.map g = xs.map k := by
  refine Except.map_of_mapM h fun x hx z hz => ?_
  obtain ⟨y, hy, hz⟩ := Except.bind_ok_iff.1 hz
  obtain rfl := Except.pure_ok_iff.1 hz
  exact hf x hx y hy

theorem Except.length_of_mapM (h : xs.mapM f = .ok ys) : ys.length = xs.length := by
  have hmap := Except.map_of_mapM (g := fun _ => ()) (k := fun _ => ()) h fun _ _ _ _ => rfl
  simpa using congrArg List.length hmap

theorem Except.exists_of_mapM_error {e : ε} (h : xs.mapM f = .error e) :
    ∃ x ∈ xs, f x = .error e := by
  induction xs with
  | nil => cases h
  | cons x xs ih =>
    rw [List.mapM_cons] at h
    cases hx : f x with
    | error e' =>
      rw [hx] at h
      cases h
      exact ⟨x, List.mem_cons_self, hx⟩
    | ok y =>
      cases hxs : xs.mapM f with
      | ok ys => rw [hx, hxs] at h; cases h
      | error e' =>
        rw [hx, hxs] at h
        cases h
        obtain ⟨z, hz, he⟩ := ih hxs
        exact ⟨z, List.mem_cons_of_mem _ hz, he⟩

namespace Action

variable {α β : Type}

/-- What an action gives in a world, and the world that it leaves. -/
def exec (a : Action α) (w : World) : Except Fault α × World := a.run w

@[simp] theorem exec_pure (x : α) (w : World) : (pure x : Action α).exec w = (.ok x, w) := rfl

@[simp] theorem exec_get (w : World) : (get : Action World).exec w = (.ok w, w) := rfl

@[simp] theorem exec_set (w w' : World) : (set w' : Action PUnit).exec w = (.ok ⟨⟩, w') := rfl

theorem exec_bind (a : Action α) (f : α → Action β) (w : World) :
    (a >>= f).exec w =
      match a.exec w with
      | (.ok x, w₁) => (f x).exec w₁
      | (.error e, w₁) => (.error e, w₁) := by
  show (match a.exec w with | (r, w₁) => ExceptT.bindCont f r w₁) = _
  rcases a.exec w with ⟨_ | _, _⟩ <;> rfl

variable {a : Action α} {w w' : World}

theorem exec_bind_ok {f : α → Action β} {y : β} : (a >>= f).exec w = (.ok y, w') ↔
      ∃ x w₁, a.exec w = (.ok x, w₁) ∧ (f x).exec w₁ = (.ok y, w') := by
  rw [exec_bind]
  constructor
  · intro h
    split at h
    next x w₁ ha => exact ⟨x, w₁, ha, h⟩
    next => simp at h
  · rintro ⟨x, w₁, ha, hf⟩
    rw [ha]
    exact hf

theorem exec_bind_error {f : α → Action β} {e : Fault} :
    (a >>= f).exec w = (.error e, w') ↔ a.exec w = (.error e, w') ∨
      ∃ x w₁, a.exec w = (.ok x, w₁) ∧ (f x).exec w₁ = (.error e, w') := by
  rw [exec_bind]
  rcases ha : a.exec w with ⟨e' | x, w₁⟩
  · simp
  · exact ⟨fun h => .inr ⟨x, w₁, rfl, h⟩, fun h => by
      rcases h with h | ⟨x', w₁', hx, h⟩
      · cases h
      · cases hx
        exact h⟩

theorem exec_map (f : α → β) (a : Action α) (w : World) :
    (f <$> a).exec w = ((a.exec w).1.map f, (a.exec w).2) := by
  rw [map_eq_pure_bind, exec_bind]
  rcases a.exec w with ⟨_ | _, _⟩ <;> rfl

theorem exec_map_ok {f : α → β} {y : β} :
    (f <$> a).exec w = (.ok y, w') ↔ ∃ x, a.exec w = (.ok x, w') ∧ f x = y := by
  rw [map_eq_pure_bind, exec_bind_ok]
  simp only [exec_pure, Prod.mk.injEq, Except.ok.injEq]
  constructor
  · rintro ⟨x, w₁, ha, rfl, rfl⟩
    exact ⟨x, ha, rfl⟩
  · rintro ⟨x, ha, rfl⟩
    exact ⟨x, w', ha, rfl, rfl⟩

@[simp] theorem exec_ofExcept (r : Except Fault α) (w : World) : (ofExcept r).exec w = (r, w) := by
  cases r <;> rfl

@[simp] theorem exec_ofFiles (f : FileTree → Except Fault α) (w : World) :
    (ofFiles f).exec w = (f w.files, w) := by
  show (ofFiles.liftExcept (f w.files)).exec w = _
  cases f w.files <;> rfl

theorem exec_changeFiles (f : FileTree → Except Fault FileTree) (w : World) :
    (changeFiles f).exec w =
      match f w.files with
      | .ok t => (.ok (), { w with files := t })
      | .error e => (.error e, w) := by
  show (match f w.files with
    | .ok files => set { w with files }
    | .error e => throw e : Action Unit).exec w = _
  cases f w.files <;> rfl

theorem exec_changeFiles_ok {f : FileTree → Except Fault FileTree} {u : Unit} :
    (changeFiles f).exec w = (.ok u, w') ↔ ∃ t, f w.files = .ok t ∧ w' = { w with files := t } := by
  rw [exec_changeFiles]
  split
  next t ht => simp [ht, eq_comm]
  next e he => simp [he]

@[simp] theorem exec_notify (n : Notice) (w : World) :
    (notify n).exec w = (.ok ⟨⟩, { w with printed := w.printed ++ [n] }) := rfl

theorem exec_tryCatch (a : Action α) (f : Fault → Action α) (w : World) :
    (tryCatch a f).exec w =
      match a.exec w with
      | (.ok x, w₁) => (.ok x, w₁)
      | (.error e, w₁) => (f e).exec w₁ := by
  simp only [tryCatch, tryCatchThe, MonadExceptOf.tryCatch, ExceptT.tryCatch, ExceptT.mk, exec,
    ExceptT.run, bind, StateT.bind]
  rcases a w with ⟨_ | _, _⟩ <;> rfl

theorem exec_attempt (a : Action α) (w : World) :
    a.attempt.exec w = (.ok (a.exec w).1, (a.exec w).2) := by
  rw [attempt, exec_tryCatch, map_eq_pure_bind, exec_bind]
  rcases a.exec w with ⟨_ | _, _⟩ <;> rfl

end Action

theorem exec_eq_of_isOk {a : Action Unit} {w : World} (h : (a.exec w).1.isOk = true) :
    a.exec w = (.ok (), (a.exec w).2) := by
  rcases he : a.exec w with ⟨_ | ⟨⟩, w'⟩
  · rw [he] at h
    cases h
  · rfl

end Docsmith
