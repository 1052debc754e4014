import Mathlib.Logic.Basic

-- Runs of a computation that has a state and may fail. A failure keeps the state.
namespace DefectLog.Running

variable {ε σ α β : Type}

theorem run_bind (x : ExceptT ε (StateM σ) α) (f : α → ExceptT ε (StateM σ) β) (s : σ) :
    (x >>= f).run s = match x.run s with
      | (.ok a, s')    => (f a).run s'
      | (.error e, s') => (.error e, s') := by
  change ExceptT.bindCont f (x.run s).1 (x.run s).2 = _
  cases x.run s
  case mk result s' => cases result <;> rfl

theorem run_tryCatch (x : ExceptT ε (StateM σ) α) (f : ε → ExceptT ε (StateM σ) α) (s : σ) :
    (tryCatch x f).run s = match x.run s with
      | (.ok a, s')    => (.ok a, s')
      | (.error e, s') => (f e).run s' := by
  rw [ExceptT.run_tryCatch]
  change (StateT.bind x.run _) s = _
  unfold StateT.bind
  cases x.run s
  case mk result s' => cases result <;> rfl

@[simp] theorem run_lift (x : Except ε α) (s : σ) : (liftM x : ExceptT ε (StateM σ) α).run s = (x, s) := by
  cases x <;> rfl

@[simp] theorem run_get (s : σ) : (get : ExceptT ε (StateM σ) σ).run s = (.ok s, s) :=
  rfl

theorem lift_bind (x : Except ε α) (f : α → Except ε β) :
    (liftM (x >>= f) : ExceptT ε (StateM σ) β) = liftM x >>= fun a => liftM (f a) := by
  cases x <;> rfl

theorem mapM_lift (f : α → Except ε β) (xs : List α) :
    xs.mapM (fun x => (liftM (f x) : ExceptT ε (StateM σ) β)) = liftM (xs.mapM f) := by
  induction xs
  case nil => rfl
  case cons x xs hi =>
    rw [List.mapM_cons, List.mapM_cons, hi, lift_bind]
    simp only [lift_bind]
    rfl

end DefectLog.Running
