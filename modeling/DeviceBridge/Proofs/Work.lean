/-!
# DeviceBridge.Proofs.Work

What holds after work on a state that may fail. `After x s done failed` says it of both ends: of the
result together with the state that the work leaves, and of the failure together with the state that
the failure leaves. Statements about a sequence are put together from those about its parts; what
every part `Maintains`, the whole does, and if every part `FailsOnly` in certain ways, so does the
whole.
-/

namespace DeviceBridge

variable {ε ε' σ τ α β : Type}

/-- What holds after work on a state. -/
def After (x : EStateM ε σ α) (s : σ) (done : α → σ → Prop) (failed : ε → σ → Prop) : Prop :=
  match x s with
  | .ok a t => done a t
  | .error e t => failed e t

/-- What holds of the state that work leaves, however it ends. -/
abbrev Leaves (x : EStateM ε σ α) (s : σ) (after : σ → Prop) : Prop :=
  After x s (fun _ => after) (fun _ => after)

/-- What holds after work on a state that does not fail. -/
abbrev Attains (x : EStateM ε σ α) (s : σ) (done : α → σ → Prop) : Prop :=
  After x s done fun _ _ => False

/-- The state that work leaves, however it ends. -/
def stateAfter (x : EStateM ε σ α) (s : σ) : σ :=
  match x s with
  | .ok _ t => t
  | .error _ t => t

/-- Whether work on a state succeeds. -/
def succeeds (x : EStateM ε σ α) (s : σ) : Bool :=
  match x s with
  | .ok _ _ => true
  | .error _ _ => false

/-- How work on a state ends, apart from the state that it leaves. -/
def outcome (x : EStateM ε σ α) (s : σ) : Except ε α :=
  match x s with
  | .ok a _ => .ok a
  | .error e _ => .error e

theorem eq_ok_of_toOption {x : Except ε α} {a : α} (h : x.toOption = some a) : x = .ok a := by
  cases x with
  | ok b => exact congrArg _ (Option.some.inj h)
  | error e => cases h

theorem exists_eq_ok_of_succeeds {x : EStateM ε σ α} {s : σ} (h : succeeds x s = true) :
    ∃ a, x s = .ok a (stateAfter x s) := by
  unfold succeeds at h
  unfold stateAfter
  cases hx : x s with
  | ok a t => exact ⟨a, rfl⟩
  | error e t => rw [hx] at h; contradiction

theorem eq_ok_of_succeeds {x : EStateM ε σ Unit} {s : σ} (h : succeeds x s = true) :
    x s = .ok () (stateAfter x s) := by
  obtain ⟨_, hx⟩ := exists_eq_ok_of_succeeds h
  exact hx

theorem eq_error_of_not_succeeds {x : EStateM ε σ α} {s : σ} (h : succeeds x s = false) :
    ∃ e, x s = .error e (stateAfter x s) := by
  unfold succeeds at h
  unfold stateAfter
  cases hx : x s with
  | ok a t => rw [hx] at h; contradiction
  | error e t => exact ⟨e, rfl⟩

section
variable {x : EStateM ε σ α} {s t : σ} {a : α} {e : ε}

theorem stateAfter_eq_of_ok (h : x s = .ok a t) : stateAfter x s = t := by
  unfold stateAfter
  rw [h]

theorem stateAfter_eq_of_error (h : x s = .error e t) : stateAfter x s = t := by
  unfold stateAfter
  rw [h]

theorem outcome_eq_of_error (h : x s = .error e t) : outcome x s = .error e := by
  unfold outcome
  rw [h]

/-- Work ends with a result of which something is known. -/
theorem exists_eq_ok_of_outcome {f : α → β} {b : β} (h : (outcome x s).toOption.map f = some b) :
    ∃ a, x s = .ok a (stateAfter x s) ∧ f a = b := by
  unfold outcome at h
  unfold stateAfter
  cases hx : x s with
  | ok a t => rw [hx] at h; exact ⟨a, rfl, Option.some.inj h⟩
  | error e t => rw [hx] at h; contradiction

theorem eq_error_of_outcome (h : outcome x s = .error e) : x s = .error e (stateAfter x s) := by
  unfold outcome at h
  unfold stateAfter
  cases hx : x s with
  | ok a t => rw [hx] at h; cases h
  | error e' t => rw [hx] at h; cases h; rfl

end

namespace After

variable {x : EStateM ε σ α} {s t : σ} {done done' : α → σ → Prop} {failed failed' : ε → σ → Prop}

theorem of_ok {a : α} (h : After x s done failed) (hx : x s = .ok a t) : done a t := by
  unfold After at h
  rw [hx] at h
  exact h

theorem of_error {e : ε} (h : After x s done failed) (hx : x s = .error e t) : failed e t := by
  unfold After at h
  rw [hx] at h
  exact h

/-- Work that does not fail has a result. -/
theorem exists_ok (h : Attains x s done) : ∃ a t, x s = .ok a t ∧ done a t := by
  cases hx : x s with
  | ok a t => exact ⟨a, t, rfl, h.of_ok hx⟩
  | error e t => exact (h.of_error hx).elim

theorem intro (hok : ∀ a t, x s = .ok a t → done a t)
    (herror : ∀ e t, x s = .error e t → failed e t) : After x s done failed := by
  unfold After
  cases hx : x s with
  | ok a t => exact hok a t hx
  | error e t => exact herror e t hx

/-- Less may be said of both ends. -/
theorem mono (h : After x s done failed) (hdone : ∀ a t, done a t → done' a t)
    (hfailed : ∀ e t, failed e t → failed' e t) : After x s done' failed' :=
  .intro (fun a t hx => hdone a t (h.of_ok hx)) (fun e t hx => hfailed e t (h.of_error hx))

/-- Less may be said of the result alone. -/
theorem imp (h : After x s done failed) (hdone : ∀ a t, done a t → done' a t) :
    After x s done' failed :=
  h.mono hdone fun _ _ hfailed => hfailed

/-- What is known of both ends twice over is known of them together. -/
theorem and (h : After x s done failed) (h' : After x s done' failed') :
    After x s (fun a t => done a t ∧ done' a t) (fun e t => failed e t ∧ failed' e t) :=
  .intro (fun _ _ hx => ⟨h.of_ok hx, h'.of_ok hx⟩) (fun _ _ hx => ⟨h.of_error hx, h'.of_error hx⟩)

theorem outcome_eq {r : Except ε α}
    (h : After x s (fun a _ => r = .ok a) (fun e _ => r = .error e)) : outcome x s = r := by
  unfold outcome
  cases hx : x s with
  | ok a t => exact (h.of_ok hx).symm
  | error e t => exact (h.of_error hx).symm

theorem stateAfter {after : σ → Prop} (h : Leaves x s after) : after (stateAfter x s) := by
  unfold DeviceBridge.stateAfter
  cases hx : x s with
  | ok a t => exact h.of_ok hx
  | error e t => exact h.of_error hx

/-- Work that consists of other work, on a part of its state, ends as that ends. -/
theorem within {x : EStateM ε σ α} {s : σ} {y : EStateM ε' τ α} {t : τ} {put : σ → τ}
    {putFailed : ε → σ → τ} {done : α → τ → Prop} {failed : ε' → τ → Prop} (wrap : ε → ε')
    (hy : y t = match x s with
      | .ok a s' => .ok a (put s')
      | .error e s' => .error (wrap e) (putFailed e s'))
    (hx : After x s (fun a s' => done a (put s')) fun e s' => failed (wrap e) (putFailed e s')) :
    After y t done failed := by
  unfold After at hx ⊢
  rw [hy]
  cases hs : x s with
  | ok a s' => rw [hs] at hx; exact hx
  | error e s' => rw [hs] at hx; exact hx

end After

variable {s : σ} {failed : ε → σ → Prop}

/-- The second part of a sequence starts where the first one was done. -/
theorem after_bind {x : EStateM ε σ α} {f : α → EStateM ε σ β} {done : β → σ → Prop}
    (h : After x s (fun a t => After (f a) t done failed) failed) :
    After (x >>= f) s done failed := by
  have hbind : (x >>= f) s = match x s with
      | .ok a t => f a t
      | .error e t => .error e t := rfl
  unfold After at h ⊢
  rw [hbind]
  cases hx : x s with
  | ok a t => rw [hx] at h; exact h
  | error e t => rw [hx] at h; exact h

theorem bind_eq_of_ok {x : EStateM ε σ α} {f : α → EStateM ε σ β} {s t : σ} {a : α}
    (h : x s = .ok a t) : (x >>= f) s = f a t := by
  change EStateM.bind x f s = _
  unfold EStateM.bind
  rw [h]

theorem get_bind_eq (f : σ → EStateM ε σ α) (s : σ) : (get >>= f) s = f s s := rfl

/-- Work that goes on from the same end goes on in the same way. -/
theorem bind_congr_of_eq {x y : EStateM ε σ α} {f : α → EStateM ε σ β} {s t : σ} (h : x s = y t) :
    (x >>= f) s = (y >>= f) t := by
  change EStateM.bind x f s = EStateM.bind y f t
  unfold EStateM.bind
  rw [h]

theorem bind_eq_of_error {x : EStateM ε σ α} {f : α → EStateM ε σ β} {s t : σ} {e : ε}
    (h : x s = .error e t) : (x >>= f) s = .error e t := by
  change EStateM.bind x f s = _
  unfold EStateM.bind
  rw [h]

theorem after_pure {a : α} {done : α → σ → Prop} (h : done a s) :
    After (pure a : EStateM ε σ α) s done failed := h

/-- Work whose result does not matter leaves what it leaves. -/
theorem leaves_discard {x : EStateM ε σ α} {after : σ → Prop} (h : Leaves x s after) :
    Leaves (discard x) s after :=
  after_bind (h.imp fun _ _ h => after_pure h)

theorem after_throw {e : ε} {done : α → σ → Prop} (h : failed e s) :
    After (throw e : EStateM ε σ α) s done failed := h

theorem after_get {done : σ → σ → Prop} (h : done s s) :
    After (get : EStateM ε σ σ) s done failed := h

/-- Work that keeps what holds of its state, however it ends. -/
def Maintains (P : σ → Prop) (x : EStateM ε σ α) : Prop := ∀ s, P s → Leaves x s P

section
variable {P : σ → Prop}

theorem maintains_bind {x : EStateM ε σ α} {f : α → EStateM ε σ β} (h : Maintains P x)
    (hf : ∀ a, Maintains P (f a)) : Maintains P (x >>= f) := fun s hs =>
  after_bind ((h s hs).imp fun a t ht => hf a t ht)

theorem maintains_pure (a : α) : Maintains P (pure a : EStateM ε σ α) := fun _ hs => after_pure hs

theorem maintains_throw (e : ε) : Maintains P (throw e : EStateM ε σ α) := fun _ hs =>
  after_throw hs

/-- What the work on each item keeps, the work on all of them keeps. -/
theorem maintains_forM {items : List α} {f : α → EStateM ε σ PUnit}
    (h : ∀ a ∈ items, Maintains P (f a)) : Maintains P (items.forM f) := by
  induction items with
  | nil => exact maintains_pure _
  | cons a items ih =>
      exact maintains_bind (h a List.mem_cons_self) fun _ =>
        ih fun b hb => h b (List.mem_cons_of_mem a hb)

theorem maintains_get : Maintains P (get : EStateM ε σ σ) := fun _ hs => after_get hs

end

/-- Work that fails only in certain ways, wherever it starts. -/
def FailsOnly (P : ε → Prop) (x : EStateM ε σ α) : Prop :=
  ∀ s, After x s (fun _ _ => True) (fun e _ => P e)

section
variable {P : ε → Prop}

theorem failsOnly_bind {x : EStateM ε σ α} {f : α → EStateM ε σ β} (h : FailsOnly P x)
    (hf : ∀ a, FailsOnly P (f a)) : FailsOnly P (x >>= f) := fun s =>
  after_bind ((h s).imp fun a t _ => hf a t)

theorem failsOnly_pure (a : α) : FailsOnly P (pure a : EStateM ε σ α) := fun _ =>
  after_pure trivial

theorem failsOnly_get : FailsOnly P (get : EStateM ε σ σ) := fun _ => after_get trivial

/-- Work on all items fails only as the work on each of them does. -/
theorem failsOnly_forM {items : List α} {f : α → EStateM ε σ PUnit}
    (h : ∀ a ∈ items, FailsOnly P (f a)) : FailsOnly P (items.forM f) := by
  induction items with
  | nil => exact failsOnly_pure _
  | cons a items ih =>
      exact failsOnly_bind (h a List.mem_cons_self) fun _ =>
        ih fun b hb => h b (List.mem_cons_of_mem a hb)

end

/-- What holds after each item of those that have been gone through holds after all of them. -/
theorem after_forM {items : List α} {f : α → EStateM ε σ PUnit} {I : List α → σ → Prop}
    (h : ∀ gone a, gone ++ [a] <+: items → ∀ t, I gone t →
      After (f a) t (fun _ => I (gone ++ [a])) failed)
    (hs : I [] s) : After (items.forM f) s (fun _ => I items) failed := by
  have hrest : ∀ (rest gone : List α) (t : σ), gone ++ rest = items → I gone t →
      After (rest.forM f) t (fun _ => I items) failed := by
    intro rest
    induction rest with
    | nil => exact fun gone t heq ht => after_pure (by rw [← heq, List.append_nil]; exact ht)
    | cons a rest ih =>
        intro gone t heq ht
        have hsplit : gone ++ [a] ++ rest = items := by rw [List.append_assoc]; exact heq
        exact after_bind ((h gone a ⟨rest, hsplit⟩ t ht).imp fun _ t' ht' => ih _ t' hsplit ht')
  exact hrest items [] s rfl hs

theorem after_modify {f : σ → σ} {done : PUnit → σ → Prop} (h : done ⟨⟩ (f s)) :
    After (modify f : EStateM ε σ PUnit) s done failed := h

end DeviceBridge
