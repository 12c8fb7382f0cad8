/-
  What a program makes of bad news.

  Some replies decide how a program will end, whatever else it is told.  `Heeds bad fate p` says so of
  the replies in `bad`: every complete conversation with one of them in it comes to `fate`.  For a
  program that may throw, the usual fate is to reject with what it was told (`PassesOn`).

  1. A program that asks nothing of the kind heeds it, for it is never told (`heeds_of_asks`).
  2. A composition heeds what its parts heed, if the second part leads from the fate of the first to
     its own fate (`Heeds.bind`).
  3. A loop whose rounds leave it when they are told leaves it so (`heeds_iterate`).
-/
import ReplaysFetcher.Effectful.Conversations
import ReplaysFetcher.Effectful.Replies

namespace Effectful

namespace Proc

variable {E : Type} {R : E → Type} {α β : Type} {l : List (Σ e : E, R e)}
  {bad : (Σ e : E, R e) → Prop} {fate : α → Prop}

/-- Every result is such, whatever is replied. -/
abbrev Brings (fate : α → Prop) (p : Proc E R α) : Prop := Gives (fun _ _ => True) fate p

/-- What a program brings is true of its result. -/
theorem Gives.emits {p : Proc E R α} {a : α} (h : Brings fate p) (hemits : Emits p l a) : fate a :=
  (h.safe (fun _ _ _ _ _ => trivial) []).of_run hemits

/-- What is said is what is asked. -/
theorem Asks.emits {P : E → Prop} {p : Proc E R α} {a : α} (hp : Asks P p) (h : Emits p l a) :
    ∀ x ∈ l, P x.1 := by
  let Said : List (Σ e : E, R e) → Prop := fun l => ∀ x ∈ l, P x.1
  have hquiet : Quiet Env.free (fun l l' => Said l → Said l') (fun _ _ => True) p := by
    refine hp.quiet (fun _ => trivial) fun e he l r l' hl => ⟨trivial, fun hsaid x hx => ?_⟩
    rw [show l' = l ++ [⟨e, r⟩] from hl] at hx
    rcases List.mem_append.1 hx with hx | hx
    · exact hsaid x hx
    · rw [List.mem_singleton.1 hx]
      exact he
  have hsafe := hquiet Said (fun _ _ hsaid hr => hr hsaid) [] fun _ hx => absurd hx List.not_mem_nil
  exact hsafe.of_run (h.mono fun l l' (hr : l' = l) => hr ▸ id)

variable (bad fate) in
/-- **Whoever is told something `bad` comes to `fate`.** -/
def Heeds (p : Proc E R α) : Prop := ∀ l a, Emits p l a → (∃ x ∈ l, bad x) → fate a

/-- Who does not ask is not told. -/
theorem heeds_of_asks {P : E → Prop} {p : Proc E R α} (hP : ∀ x, bad x → ¬ P x.1) (hp : Asks P p) :
    Heeds bad fate p := by
  rintro l a hemits ⟨x, hx, hbad⟩
  exact absurd (hp.emits hemits x hx) (hP x hbad)

/-- A finished program is told nothing. -/
theorem heeds_pure {a : α} : Heeds bad fate (.pure a : Proc E R α) := by
  rintro l a hemits ⟨x, hx, _⟩
  rw [(emits_pure.1 hemits).1] at hx
  exact absurd hx List.not_mem_nil

/-- One request heeds what is bad of its reply. -/
theorem heeds_perform {e : E} {fate : R e → Prop} (h : ∀ r, bad ⟨e, r⟩ → fate r) :
    Heeds bad fate (perform e) := by
  rintro l r hemits ⟨x, hx, hbad⟩
  rw [emits_perform.1 hemits, List.mem_singleton] at hx
  exact h r (hx ▸ hbad)

/-- A composition heeds what its parts do, if what the first one makes of it is brought on. -/
theorem Heeds.bind {mid : α → Prop} {fate : β → Prop} {p : Proc E R α} {f : α → Proc E R β}
    (hp : Heeds bad mid p) (hmid : ∀ a, mid a → Brings fate (f a))
    (hf : ∀ a, Heeds bad fate (f a)) : Heeds bad fate (p.bind f) := by
  rintro l b hemits ⟨x, hx, hbad⟩
  obtain ⟨a, l₁, l₂, rfl, hfirst, hsecond⟩ := emits_bind.1 hemits
  rcases List.mem_append.1 hx with hx | hx
  · exact (hmid a (hp l₁ a hfirst ⟨x, hx, hbad⟩)).emits hsecond
  · exact hf a l₂ b hsecond ⟨x, hx, hbad⟩

/-- The same, when more is known of what the first part returns. -/
theorem Heeds.bind_of (mid : α → Prop) {told : α → Prop} {fate : β → Prop} {p : Proc E R α}
    {f : α → Proc E R β} (hgives : Brings mid p) (hp : Heeds bad told p)
    (htold : ∀ a, told a → Brings fate (f a)) (hf : ∀ a, mid a → Heeds bad fate (f a)) :
    Heeds bad fate (p.bind f) := by
  rintro l b hemits ⟨x, hx, hbad⟩
  obtain ⟨a, l₁, l₂, rfl, hfirst, hsecond⟩ := emits_bind.1 hemits
  rcases List.mem_append.1 hx with hx | hx
  · exact (htold a (hp l₁ a hfirst ⟨x, hx, hbad⟩)).emits hsecond
  · exact hf a (hgives.emits hfirst) l₂ b hsecond ⟨x, hx, hbad⟩

end Proc

namespace Async

variable {E : Type} {R : E → Type} {ε α β : Type} {bad : (Σ e : E, R e) → Prop} {error : ε}

variable (bad error) in
/-- Whoever is told rejects with this. -/
abbrev PassesOn (p : Async E R ε α) : Prop := Proc.Heeds bad (· = .error error) p

/-- A composition passes on what its parts do. -/
theorem passesOn_bind {p : Async E R ε α} {f : α → Async E R ε β} (hp : PassesOn bad error p)
    (hf : ∀ a, PassesOn bad error (f a)) :
    PassesOn bad error (p >>= f : Async E R ε β) := by
  rw [bind_eq]
  refine Proc.Heeds.bind hp ?_ fun r => ?_
  · rintro r rfl
    exact Proc.gives_pure rfl
  · cases r with
    | ok a => exact hf a
    | error e => exact Proc.heeds_pure

variable {fate : Except ε β → Prop}

/-- An `await` chain whose first part is not told. -/
theorem heeds_bind {p : Async E R ε α} {f : α → Async E R ε β}
    (hp : Proc.Heeds bad (fun _ => False) p) (hf : ∀ a, Proc.Heeds bad fate (f a)) :
    Proc.Heeds bad fate (p >>= f : Async E R ε β) := by
  rw [bind_eq]
  refine hp.bind (fun _ hnever => hnever.elim) fun r => ?_
  cases r with
  | ok a => exact hf a
  | error e => exact Proc.heeds_pure

/-- A first part that is told nothing bad does not matter. -/
theorem heeds_lift_bind {p : Proc E R α} {f : α → Async E R ε β}
    (hp : Proc.Heeds bad (fun _ => False) p) (hf : ∀ a, Proc.Heeds bad fate (f a)) :
    Proc.Heeds bad fate ((p : Async E R ε α) >>= f : Async E R ε β) := by
  rw [lift_bind_eq]
  exact hp.bind (fun _ hnever => hnever.elim) hf

/-- One whose first part resolves when it is told. -/
theorem heeds_bind_of (mid told : α → Prop) {p : Async E R ε α} {f : α → Async E R ε β}
    (hgives : Proc.Brings (Settled mid fun _ => True) p)
    (hp : Proc.Heeds bad (Settled told fun _ => False) p)
    (htold : ∀ a, told a → Proc.Brings fate (f a))
    (hf : ∀ a, mid a → Proc.Heeds bad fate (f a)) :
    Proc.Heeds bad fate (p >>= f : Async E R ε β) := by
  rw [bind_eq]
  refine Proc.Heeds.bind_of _ hgives hp (fun r hr => ?_) fun r hr => ?_
  · cases r with
    | ok a => exact htold a hr
    | error e => exact hr.elim
  · cases r with
    | ok a => exact hf a hr
    | error e => exact Proc.heeds_pure

/-- **A loop whose rounds leave it when they are told.** -/
theorem heeds_iterate {σ : Type} {body : σ → Async E R ε (σ ⊕ β)} {s : σ} (Inv : σ → Prop)
    (hgives : ∀ s, Inv s → Proc.Brings (Settled (Sum.elim Inv fun _ => True) fun _ => True) (body s))
    (hbody : ∀ s, Inv s → Proc.Heeds bad
      (Settled (Sum.elim (fun _ => False) fun b => fate (.ok b)) fun e => fate (.error e)) (body s))
    (h : Inv s) : Proc.Heeds bad fate (iterate body s) := by
  rintro l r hemits ⟨x, hx, hbad⟩
  unfold iterate Proc.iterate at hemits
  obtain ⟨s', l₁, l₂, l₃, r', rfl, hrounds, hlast, hpure⟩ := Proc.emits_loop.1 hemits
  obtain ⟨rfl, rfl⟩ := Proc.emits_pure.1 hpure
  -- a round that goes on has not been told
  have hbefore : Inv s' ∧ ∀ x ∈ l₁, ¬ bad x := by
    clear hemits hlast hpure hx
    induction hrounds with
    | start => exact ⟨h, fun _ hx => absurd hx List.not_mem_nil⟩
    | round _ hround ih =>
      obtain ⟨r, l₄, l₅, rfl, hround, hleave⟩ := Proc.emits_bind.1 hround
      obtain ⟨rfl, hr⟩ := Proc.emits_pure.1 hleave
      obtain ⟨hinv, hnone⟩ := ih
      match r with
      | .ok (.inl s'') =>
        cases hr
        refine ⟨(hgives _ hinv).emits hround, fun x hx hbad => ?_⟩
        rw [List.append_nil] at hx
        rcases List.mem_append.1 hx with hx | hx
        · exact hnone x hx hbad
        · exact hbody _ hinv _ _ hround ⟨x, hx, hbad⟩
      | .ok (.inr b) => cases hr
      | .error e => cases hr
  obtain ⟨x', l₄, l₅, rfl, hround, hleave⟩ := Proc.emits_bind.1 hlast
  obtain ⟨rfl, hr⟩ := Proc.emits_pure.1 hleave
  have hmem : x ∈ l₄ := by
    rw [List.append_nil, List.append_nil] at hx
    exact (List.mem_append.1 hx).resolve_left fun hx => hbefore.2 x hx hbad
  have htold := hbody s' hbefore.1 l₄ x' hround ⟨x, hmem, hbad⟩
  match x' with
  | .ok (.inr b) =>
    cases hr
    exact htold
  | .ok (.inl s'') => cases hr
  | .error e =>
    cases hr
    exact htold

end Async

end Effectful
