/-
  Programs before services that are told apart by their replies alone.

  Where nothing depends on what the services keep, an environment is the set of replies it may give
  to each request (`replying`), and `Gives allowed P p` says that every result of `p` under such
  replies satisfies `P`.  The rules are those of `Safe` without their worlds and without their
  stability conditions.  A loop-free program also gets to a result (`ends_of_gives`).
-/
import ReplaysFetcher.Effectful.Termination

namespace Effectful

namespace Proc

variable {E : Type} {R : E → Type} {α β τ : Type}

/-- The services that may give these replies. -/
def replying (allowed : (e : E) → R e → Prop) : Env Unit E R := fun _ e r _ => allowed e r

/-- Every result satisfies `P`. -/
def Gives (allowed : (e : E) → R e → Prop) (P : α → Prop) (p : Proc E R α) : Prop :=
  Safe (replying allowed) Lts.Alone (fun _ _ => True) (fun a _ => P a) () p

variable {allowed : (e : E) → R e → Prop} {P : α → Prop}

/-- What follows from a property of the results is one too. -/
theorem Gives.imp {Q : α → Prop} {p : Proc E R α} (h : Gives allowed P p) (hPQ : ∀ a, P a → Q a) :
    Gives allowed Q p :=
  Lts.Safe.imp h fun a _ ha => hPQ a ha

/-- A finished program gives its value. -/
theorem gives_pure {a : α} (h : P a) : Gives allowed P (.pure a) :=
  safe_pure (fun _ _ h _ => h) h

/-- A request gives what it gives on each reply that is allowed. -/
theorem gives_call {e : E} {k : R e → Proc E R α}
    (h : ∀ r, allowed e r → Gives allowed P (k r)) : Gives allowed P (.call e k) :=
  safe_call (fun _ => True) (fun _ _ _ _ => trivial) (fun _ _ r _ hr => ⟨trivial, h r hr⟩) trivial

/-- One request gives its reply. -/
theorem gives_perform {e : E} {P : R e → Prop} (h : ∀ r, allowed e r → P r) :
    Gives allowed P (perform e) :=
  gives_call fun r hr => gives_pure (h r hr)

/-- The second part gives it, from whatever the first part gives. -/
theorem gives_bind (mid : α → Prop) {P : β → Prop} {p : Proc E R α} {f : α → Proc E R β}
    (hp : Gives allowed mid p) (hf : ∀ a, mid a → Gives allowed P (f a)) :
    Gives allowed P (p.bind f) :=
  safe_bind_of hp fun a _ ha => hf a ha

/-- A fan gives what is made of what its tasks give. -/
theorem gives_fan {n limit : ℕ} {tasks : Fin n → Proc E R τ} {k : (Fin n → τ) → Proc E R α}
    (mid : Fin n → τ → Prop) (ht : ∀ i, Gives allowed (mid i) (tasks i))
    (hk : ∀ vs, (∀ i, mid i (vs i)) → Gives allowed P (k vs)) :
    Gives allowed P (.fan limit tasks k) := by
  have htasks : ∀ i, Safe (replying allowed) (fun _ _ => True) (fun _ _ => True)
      (fun a _ => mid i a) () (tasks i) := by
    intro i
    exact (ht i).weaken (fun _ _ _ => rfl) (fun _ _ h => h) fun _ _ h => h
  refine safe_fan (fun _ => True) ?_ ?_ ?_ (fun _ => trivial) ?_ ?_ htasks ?_ trivial
  · exact fun _ _ _ _ _ _ => trivial
  · exact fun _ _ _ _ => trivial
  · exact fun _ _ _ _ => trivial
  · exact fun _ _ _ _ => trivial
  · exact fun _ _ _ _ _ => trivial
  · exact fun vs _ _ hvs => hk vs hvs

/-- Of any result nothing is said. -/
theorem gives_any (p : Proc E R α) : Gives allowed (fun _ => True) p :=
  safe_any (fun _ _ => trivial) p

/-- What a program gives under some replies it gives wherever the replies are such. -/
theorem Gives.safe {W : Type} {env : Env W E R} {rely : W → W → Prop} {p : Proc E R α}
    (h : Gives allowed P p) (henv : ∀ w e r w', env w e r w' → allowed e r) (w : W) :
    Safe env rely (fun _ _ => True) (fun a _ => P a) w p := by
  refine Lts.Safe.coinduct (fun _ q => Gives allowed P q) ?_ ?_ ?_ h
  · rintro w q w' q' hq hs
    refine ⟨trivial, Or.inl ?_⟩
    rcases Step.anywhere hs with ⟨_, hs'⟩ | ⟨e, r, hr, hs'⟩
    · exact Lts.Safe.step hq (hs' (replying allowed) ())
    · exact Lts.Safe.step hq (hs' (replying allowed) () () (henv _ _ _ _ hr))
  · exact fun _ _ _ hq _ => Or.inl hq
  · exact fun _ q a hq ha => Lts.Safe.finished hq ha

/-- Every result of a run satisfies `P`. -/
theorem Gives.returned {p : Proc E R α} {a : α} {w : Unit} (h : Gives allowed P p)
    (hruns : (lts (replying allowed) α).Runs Lts.Alone () p w (.pure a)) : P a :=
  h.of_run hruns

/-- A loop-free program that gives only `P` ends in `P`. -/
theorem ends_of_gives {p : Proc E R α} (hloop : LoopFree (fun _ => True) p)
    (hanswer : ∀ e, ∃ r, allowed e r) (h : Gives allowed P p) :
    Ends (replying allowed) (fun a _ => P a) () p := by
  have hlive : ∀ (w : Unit) (e : E), True → ∃ r w', replying allowed w e r w' := by
    intro w e _
    obtain ⟨r, hr⟩ := hanswer e
    exact ⟨r, w, hr⟩
  exact Lts.Safe.ends h (hloop.ends hlive ())

/-- What ends in `P` under these replies gives only `P` under fewer of them. -/
theorem Ends.not_gives {fewer : (e : E) → R e → Prop} {p : Proc E R α}
    (h : Ends (replying allowed) (fun a _ => P a) () p) (hloop : LoopFree (fun _ => True) p)
    (hfewer : ∀ e r, fewer e r → allowed e r) (hanswer : ∀ e, ∃ r, fewer e r) :
    ¬ Gives fewer (fun a => ¬ P a) p := by
  intro hgives
  obtain ⟨w, q, a, hruns, hresult, hnot⟩ := (ends_of_gives hloop hanswer hgives).exists_run
  rw [result_eq_some.1 hresult] at hruns
  exact hnot (h.returned (runs_mono (fun _ e r _ hr => hfewer e r hr) hruns))

end Proc

namespace Async

variable {E : Type} {R : E → Type} {ε α β : Type} {allowed : (e : E) → R e → Prop}
  {P : Except ε β → Prop}

/-- "Resolved with `ok`, or rejected with `err`". -/
def Settled (ok : α → Prop) (err : ε → Prop) : Except ε α → Prop
  | .ok a => ok a
  | .error e => err e

/-- After a value the next part gives it, an error has to be one already. -/
theorem gives_bind (ok : α → Prop) {p : Async E R ε α} {f : α → Async E R ε β}
    (hp : Proc.Gives allowed (Settled ok fun e => P (.error e)) p)
    (hf : ∀ a, ok a → Proc.Gives allowed P (f a)) :
    Proc.Gives allowed P (p >>= f : Async E R ε β) := by
  rw [bind_eq]
  refine Proc.gives_bind _ hp fun r hr => ?_
  cases r with
  | ok a => exact hf a hr
  | error e => exact Proc.gives_pure hr

/-- The same, with a first part that cannot reject. -/
theorem gives_lift_bind (mid : α → Prop) {p : Proc E R α} {f : α → Async E R ε β}
    (hp : Proc.Gives allowed mid p) (hf : ∀ a, mid a → Proc.Gives allowed P (f a)) :
    Proc.Gives allowed P ((p : Async E R ε α) >>= f : Async E R ε β) := by
  rw [lift_bind_eq]
  exact Proc.gives_bind mid hp hf

/-- Whatever resolves: nothing is known of it. -/
theorem gives_any (p : Async E R ε α) :
    Proc.Gives allowed (Settled (fun _ => True) fun _ => True) p := by
  refine (Proc.gives_any p).imp ?_
  rintro (e | a) _ <;> trivial

/-- A loop keeps what its rounds keep. -/
theorem gives_iterate {σ : Type} {body : σ → Async E R ε (σ ⊕ β)} {s : σ} (Inv : σ → Prop)
    (hbody : ∀ s, Inv s → Proc.Gives allowed
      (Settled (Sum.elim Inv fun b => P (.ok b)) fun e => P (.error e)) (body s))
    (h : Inv s) : Proc.Gives allowed P (iterate body s) := by
  refine safe_iterate (fun s _ => Inv s) (fun _ => trivial) (fun _ _ _ h _ => h)
    (fun _ _ _ h _ => h) (fun s _ hs => Lts.Safe.imp (hbody s hs) ?_) h
  rintro (e | s | b) _ hr
  · exact hr
  · exact hr
  · exact hr

/-- After an error the handler gives it, a value has to be one already. -/
theorem gives_tryCatch (err : ε → Prop) {p : Async E R ε β} {f : ε → Async E R ε β}
    (hp : Proc.Gives allowed (Settled (fun b => P (.ok b)) err) p)
    (hf : ∀ e, err e → Proc.Gives allowed P (f e)) :
    Proc.Gives allowed P (tryCatch p f : Async E R ε β) := by
  rw [tryCatch_eq]
  refine Proc.gives_bind _ hp fun r hr => ?_
  cases r with
  | ok b => exact Proc.gives_pure hr
  | error e => exact hf e hr

/-- A loop of loop-free rounds ends, if every round that goes on brings a measure down. -/
theorem ends_iterate_of_gives {σ : Type} {body : σ → Async E R ε (σ ⊕ β)} {s : σ} (Inv : σ → Prop)
    (measure : σ → ℕ) (hanswer : ∀ e, ∃ r, allowed e r)
    (hloop : ∀ s, Proc.LoopFree (fun _ => True) (body s))
    (hbody : ∀ s, Inv s → Proc.Gives allowed (Settled
      (Sum.elim (fun s' => Inv s' ∧ measure s' < measure s) fun _ => True) fun _ => True) (body s))
    (h : Inv s) : Proc.Ends (Proc.replying allowed) (fun _ _ => True) () (iterate body s) := by
  refine ends_iterate (fun s _ => Inv s) measure (fun s _ hs => ?_) h
  refine (Proc.ends_of_gives (hloop s) hanswer (hbody s hs)).imp ?_
  rintro (e | s' | b) _ hr
  · exact trivial
  · exact hr
  · exact trivial

end Async

end Effectful
