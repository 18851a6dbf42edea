import Mathlib.Data.List.Basic

/-! Passing a fallible function over a list: when the pass succeeds, and what it returns. -/

namespace Traverse

variable {ε α β γ : Type}

theorem mapM_cons_eq_ok {f : α → Except ε β} {a : α} {rest : List α} {out : List β} :
    (a :: rest).mapM f = .ok out ↔
      ∃ b bs, f a = .ok b ∧ rest.mapM f = .ok bs ∧ b :: bs = out := by
  rw [List.mapM_cons]
  cases hf : f a with
  | error e => simp [bind, Except.bind]
  | ok b => cases hRest : rest.mapM f <;> simp [bind, Except.bind, pure, Except.pure]

/-- A pass that succeeds on every element is a map. -/
theorem mapM_eq_ok_map {f : α → Except ε β} {g : α → β} {xs : List α}
    (h : ∀ a ∈ xs, f a = .ok (g a)) : xs.mapM f = .ok (xs.map g) := by
  induction xs with
  | nil => rfl
  | cons a rest ih =>
      rw [mapM_cons_eq_ok]
      exact ⟨g a, rest.map g, h a List.mem_cons_self,
        ih fun b hb => h b (List.mem_cons_of_mem _ hb), rfl⟩

/-- The pass succeeds exactly when it does on every element. -/
theorem mapM_isOk_iff {f : α → Except ε β} {xs : List α} :
    (∃ out, xs.mapM f = .ok out) ↔ ∀ a ∈ xs, ∃ b, f a = .ok b := by
  induction xs with
  | nil => simp [pure, Except.pure]
  | cons a rest ih =>
      rw [List.forall_mem_cons, ← ih]
      constructor
      · rintro ⟨out, h⟩
        rw [mapM_cons_eq_ok] at h
        obtain ⟨b, bs, hHead, hRest, _⟩ := h
        exact ⟨⟨b, hHead⟩, bs, hRest⟩
      · rintro ⟨⟨b, hHead⟩, bs, hRest⟩
        exact ⟨b :: bs, mapM_cons_eq_ok.mpr ⟨b, bs, hHead, hRest, rfl⟩⟩

/-- A pass for its checks alone succeeds exactly when every check does. -/
theorem forM_eq_ok_iff {f : α → Except ε PUnit} {xs : List α} :
    xs.forM f = .ok () ↔ ∀ a ∈ xs, f a = .ok () := by
  induction xs with
  | nil => simp [pure, Except.pure]
  | cons a rest ih =>
      show (f a >>= fun _ => rest.forM f) = .ok () ↔ _
      rw [List.forall_mem_cons, ← ih]
      cases f a <;> simp [bind, Except.bind]

/-- What a pass returns comes element by element from what it was given. -/
theorem forall₂_of_mapM {f : α → Except ε β} {xs : List α} {out : List β}
    (h : xs.mapM f = .ok out) : List.Forall₂ (fun a b => f a = .ok b) xs out := by
  induction xs generalizing out with
  | nil => cases h; exact .nil
  | cons a rest ih =>
      rw [mapM_cons_eq_ok] at h
      obtain ⟨b, bs, hHead, hRest, rfl⟩ := h
      exact .cons hHead (ih hRest)

theorem mem_of_mapM {f : α → Except ε β} {xs : List α} {out : List β}
    (h : xs.mapM f = .ok out) {a : α} (ha : a ∈ xs) : ∃ b ∈ out, f a = .ok b := by
  induction xs generalizing out with
  | nil => cases ha
  | cons first rest ih =>
      rw [mapM_cons_eq_ok] at h
      obtain ⟨b, bs, hHead, hRest, rfl⟩ := h
      rcases List.mem_cons.mp ha with rfl | hIn
      · exact ⟨b, List.mem_cons_self, hHead⟩
      · obtain ⟨c, hc, hfc⟩ := ih hRest hIn
        exact ⟨c, List.mem_cons_of_mem _ hc, hfc⟩

theorem mem_mapM {f : α → Except ε β} {xs : List α} {out : List β}
    (h : xs.mapM f = .ok out) {b : β} (hb : b ∈ out) : ∃ a ∈ xs, f a = .ok b := by
  induction xs generalizing out with
  | nil => cases h; cases hb
  | cons first rest ih =>
      rw [mapM_cons_eq_ok] at h
      obtain ⟨c, bs, hHead, hRest, rfl⟩ := h
      rcases List.mem_cons.mp hb with rfl | hIn
      · exact ⟨first, List.mem_cons_self, hHead⟩
      · obtain ⟨a, ha, hfa⟩ := ih hRest hIn
        exact ⟨a, List.mem_cons_of_mem _ ha, hfa⟩

/-- Whatever every step keeps, the pass keeps. -/
theorem map_eq_of_mapM {f : α → Except ε β} {p : α → γ} {q : β → γ} {xs : List α} {out : List β}
    (hKeeps : ∀ a ∈ xs, ∀ b, f a = .ok b → q b = p a) (h : xs.mapM f = .ok out) :
    out.map q = xs.map p := by
  induction xs generalizing out with
  | nil => cases h; rfl
  | cons a rest ih =>
      rw [mapM_cons_eq_ok] at h
      obtain ⟨b, bs, hHead, hRest, rfl⟩ := h
      have hTail := ih (fun c hc => hKeeps c (List.mem_cons_of_mem _ hc)) hRest
      rw [List.map_cons, List.map_cons, hKeeps a List.mem_cons_self b hHead, hTail]

/-- Two passes one after another are one pass. -/
theorem mapM_comp_eq_ok {f : α → Except ε β} {g : β → Except ε γ} {h : α → Except ε γ}
    {xs : List α} {out : List γ}
    (hComp : ∀ a ∈ xs, ∀ c, (∃ b, f a = .ok b ∧ g b = .ok c) ↔ h a = .ok c) :
    (∃ middle, xs.mapM f = .ok middle ∧ middle.mapM g = .ok out) ↔ xs.mapM h = .ok out := by
  induction xs generalizing out with
  | nil => simp [pure, Except.pure]
  | cons a rest ih =>
      have hHead := hComp a List.mem_cons_self
      have hTail : ∀ out : List γ, (∃ middle, rest.mapM f = .ok middle ∧
          middle.mapM g = .ok out) ↔ rest.mapM h = .ok out :=
        fun out => ih fun b hb => hComp b (List.mem_cons_of_mem _ hb)
      rw [mapM_cons_eq_ok]
      constructor
      · rintro ⟨middle, hFirst, hSecond⟩
        rw [mapM_cons_eq_ok] at hFirst
        obtain ⟨b, bs, hb, hbs, rfl⟩ := hFirst
        rw [mapM_cons_eq_ok] at hSecond
        obtain ⟨c, cs, hc, hcs, rfl⟩ := hSecond
        exact ⟨c, cs, (hHead c).mp ⟨b, hb, hc⟩, (hTail cs).mp ⟨bs, hbs, hcs⟩, rfl⟩
      · rintro ⟨c, cs, hc, hcs, rfl⟩
        obtain ⟨b, hb, hgc⟩ := (hHead c).mpr hc
        obtain ⟨bs, hbs, hgcs⟩ := (hTail cs).mpr hcs
        exact ⟨b :: bs, mapM_cons_eq_ok.mpr ⟨b, bs, hb, hbs, rfl⟩,
          mapM_cons_eq_ok.mpr ⟨c, cs, hgc, hgcs, rfl⟩⟩

/-- What `g` takes back element by element, it takes back over the list. -/
theorem mapM_inverse {f : α → Except ε β} {g : β → Except ε α} {xs : List α} {out : List β}
    (hBack : ∀ a ∈ xs, ∀ b, f a = .ok b → g b = .ok a) (h : xs.mapM f = .ok out) :
    out.mapM g = .ok xs := by
  induction xs generalizing out with
  | nil => cases h; rfl
  | cons a rest ih =>
      rw [mapM_cons_eq_ok] at h
      obtain ⟨b, bs, hHead, hRest, rfl⟩ := h
      exact mapM_cons_eq_ok.mpr ⟨a, rest, hBack a List.mem_cons_self b hHead,
        ih (fun c hc => hBack c (List.mem_cons_of_mem _ hc)) hRest, rfl⟩

/-- A pass over the elements in another order returns the results in another order. -/
theorem mapM_perm {f : α → Except ε β} {xs ys : List α} (hPerm : xs.Perm ys) {out : List β}
    (h : xs.mapM f = .ok out) : ∃ out', ys.mapM f = .ok out' ∧ out.Perm out' := by
  induction hPerm generalizing out with
  | nil => exact ⟨out, h, .refl _⟩
  | cons a _ ih =>
      rw [mapM_cons_eq_ok] at h
      obtain ⟨b, bs, hHead, hRest, rfl⟩ := h
      obtain ⟨bs', hRest', hSame⟩ := ih hRest
      exact ⟨b :: bs', mapM_cons_eq_ok.mpr ⟨b, bs', hHead, hRest', rfl⟩, hSame.cons b⟩
  | swap a a' rest =>
      rw [mapM_cons_eq_ok] at h
      obtain ⟨b, _, hHead, hTail, rfl⟩ := h
      rw [mapM_cons_eq_ok] at hTail
      obtain ⟨b', bs, hHead', hRest, rfl⟩ := hTail
      have hOther := mapM_cons_eq_ok.mpr ⟨b, bs, hHead, hRest, rfl⟩
      exact ⟨b' :: b :: bs, mapM_cons_eq_ok.mpr ⟨b', _, hHead', hOther, rfl⟩, .swap b' b bs⟩
  | trans _ _ ih ih' =>
      obtain ⟨middle, hMiddle, hFirst⟩ := ih h
      obtain ⟨last, hLast, hSecond⟩ := ih' hMiddle
      exact ⟨last, hLast, hFirst.trans hSecond⟩

/-! ### Passes that may find nothing -/

theorem mapM_cons_eq_some {f : α → Option β} {a : α} {rest : List α} {out : List β} :
    (a :: rest).mapM f = some out ↔
      ∃ b bs, f a = some b ∧ rest.mapM f = some bs ∧ b :: bs = out := by
  rw [List.mapM_cons]
  cases hf : f a with
  | none => simp
  | some b => cases hRest : rest.mapM f <;> simp

theorem forall₂_of_mapM_some {f : α → Option β} {xs : List α} {out : List β}
    (h : xs.mapM f = some out) : List.Forall₂ (fun a b => f a = some b) xs out := by
  induction xs generalizing out with
  | nil => cases h; exact .nil
  | cons a rest ih =>
      rw [mapM_cons_eq_some] at h
      obtain ⟨b, bs, hHead, hRest, rfl⟩ := h
      exact .cons hHead (ih hRest)

/-- The pass finds everything exactly when it finds each. -/
theorem mapM_isSome_iff {f : α → Option β} {xs : List α} :
    (xs.mapM f).isSome = true ↔ ∀ a ∈ xs, (f a).isSome = true := by
  induction xs with
  | nil => simp
  | cons a rest ih =>
      rw [List.forall_mem_cons, ← ih, List.mapM_cons]
      cases hf : f a with
      | none => simp
      | some b => cases hRest : rest.mapM f <;> simp

theorem exists_of_mapM_some {f : α → Option β} {xs : List α} {out : List β}
    (h : xs.mapM f = some out) {a : α} (ha : a ∈ xs) : ∃ b, f a = some b :=
  Option.isSome_iff_exists.mp (mapM_isSome_iff.mp (by simp [h]) a ha)

theorem mapM_eq_some_map {f : α → Option β} {g : α → β} {xs : List α}
    (h : ∀ a ∈ xs, f a = some (g a)) : xs.mapM f = some (xs.map g) := by
  induction xs with
  | nil => rfl
  | cons a rest ih =>
      rw [List.forall_mem_cons] at h
      exact mapM_cons_eq_some.mpr ⟨g a, rest.map g, h.1, ih h.2, rfl⟩

/-! ### Rewriting one element -/

/-- Rewrite the first element that satisfies `p`; `missing` is what the list ends with when
there is none. -/
def updateFirst (p : α → Bool) (f : α → Except ε α) (missing : Except ε (List α)) :
    List α → Except ε (List α)
  | [] => missing
  | a :: rest =>
      if p a then do
        let updated ← f a
        return updated :: rest
      else do
        let updated ← updateFirst p f missing rest
        return a :: updated

/-- What every element had, and the rewritten and the added ones get, all elements have. -/
theorem forall_updateFirst {p : α → Bool} {f : α → Except ε α} {missing : Except ε (List α)}
    {P : α → Prop} {xs out : List α} (hAll : ∀ a ∈ xs, P a)
    (hUpdated : ∀ a b, P a → f a = .ok b → P b)
    (hMissing : ∀ extra, missing = .ok extra → ∀ a ∈ extra, P a)
    (h : updateFirst p f missing xs = .ok out) : ∀ a ∈ out, P a := by
  induction xs generalizing out with
  | nil => exact hMissing out h
  | cons first rest ih =>
      obtain ⟨hFirst, hRest⟩ := List.forall_mem_cons.mp hAll
      unfold updateFirst at h
      split at h
      · cases hf : f first with
        | error e => simp [hf, bind, Except.bind] at h
        | ok updated =>
            simp only [hf, bind, Except.bind, pure, Except.pure, Except.ok.injEq] at h
            subst h
            exact List.forall_mem_cons.mpr ⟨hUpdated first updated hFirst hf, hRest⟩
      · cases hTail : updateFirst p f missing rest with
        | error e => simp [hTail, bind, Except.bind] at h
        | ok updated =>
            simp only [hTail, bind, Except.bind, pure, Except.pure, Except.ok.injEq] at h
            subst h
            exact List.forall_mem_cons.mpr ⟨hFirst, ih hRest hTail⟩

/-- Where at most one element satisfies `p`, rewriting the first one is a pass over all. -/
theorem mapM_of_updateFirst {p : α → Bool} {f : α → Except ε α} {xs out : List α}
    (hAlone : xs.Pairwise fun a b => p a = true → p b = false)
    (h : updateFirst p f (.ok []) xs = .ok out) :
    xs.mapM (fun a => if p a then f a else .ok a) = .ok out := by
  induction xs generalizing out with
  | nil => exact h
  | cons first rest ih =>
      obtain ⟨hFirst, hRest⟩ := List.pairwise_cons.mp hAlone
      rw [mapM_cons_eq_ok]
      unfold updateFirst at h
      split at h
      · next hHit =>
          cases hf : f first with
          | error e => simp [hf, bind, Except.bind] at h
          | ok updated =>
              simp only [hf, bind, Except.bind, pure, Except.pure, Except.ok.injEq] at h
              have hOthers : rest.mapM (fun a => if p a then f a else .ok a) = .ok (rest.map id) :=
                mapM_eq_ok_map fun a ha => by simp [hFirst a ha hHit]
              rw [List.map_id] at hOthers
              exact ⟨updated, rest, if_pos hHit, hOthers, h⟩
      · next hMiss =>
          cases hTail : updateFirst p f (.ok []) rest with
          | error e => simp [hTail, bind, Except.bind] at h
          | ok updated =>
              simp only [hTail, bind, Except.bind, pure, Except.pure, Except.ok.injEq] at h
              exact ⟨first, updated, if_neg hMiss, ih hRest hTail, h⟩

end Traverse
