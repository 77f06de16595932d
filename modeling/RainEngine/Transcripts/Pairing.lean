import Mathlib.Data.List.Basic

/-
  This file defines transcripts whose entries list calls and
  answer them, and says when the two belong together: no
  answer comes before its call, and each call that is due has
  an answer after it.

  Key definitions include:
    * `View`
    * `Preceded`
    * `Followed`
    * `Translates`

  Key theorems include:
    * `preceded_iff`
    * `followed_iff`
    * `Translates.preceded`
    * `Translates.followed`
-/

namespace Transcripts

variable {α β κ : Type}

/- The calls an entry lists, and those it answers. -/
structure View (α κ : Type) where
  listed : α → List κ
  answered : α → List κ

namespace View

/- An entry that neither lists nor answers a call. -/
def Silent (v : View α κ) (entry : α) : Prop :=
  v.listed entry = [] ∧ v.answered entry = []

/- Every answer is to a call that was seen or listed before. -/
def Preceded
    (v : View α κ) :
    (κ → Prop) → List α → Prop
| _, [] => True
| seen, entry :: rest =>
    (∀ c ∈ v.answered entry, seen c) ∧
      v.Preceded (fun c => seen c ∨ c ∈ v.listed entry) rest

/- Every listed call that is due is answered afterwards. -/
def Followed
    (v : View α κ)
    (due : κ → Prop) :
    List α → Prop
| [] => True
| entry :: rest =>
    (∀ c ∈ v.listed entry, due c →
      ∃ later ∈ rest, c ∈ v.answered later) ∧
      v.Followed due rest

section Splits

variable {v : View α κ}
variable {seen due : κ → Prop}
variable {entries : List α}

/- What precedes an answer, at every place it stands. -/
theorem preceded_iff :
    v.Preceded seen entries ↔
      ∀ before entry after,
        entries = before ++ entry :: after →
          ∀ c ∈ v.answered entry,
            seen c ∨ ∃ earlier ∈ before, c ∈ v.listed earlier := by
  induction entries generalizing seen with
  | nil => simp [Preceded]
  | cons first rest ih =>
      rw [Preceded, ih]
      constructor
      · intro hPreceded before entry after hSplit c hMem
        cases before with
        | nil =>
            cases hSplit
            exact .inl (hPreceded.1 c hMem)
        | cons head before =>
            rw [List.cons_append, List.cons.injEq] at hSplit
            have hLater := hPreceded.2 before entry after
              hSplit.2 c hMem
            cases hLater with
            | inl hSeen =>
                cases hSeen with
                | inl hEarly => exact .inl hEarly
                | inr hFirst =>
                    rw [hSplit.1] at hFirst
                    exact .inr
                      ⟨head, List.mem_cons_self, hFirst⟩
            | inr hListed =>
                obtain ⟨earlier, hBefore, hCall⟩ := hListed
                exact .inr ⟨earlier,
                  List.mem_cons_of_mem _ hBefore, hCall⟩
      · intro hAll
        constructor
        · intro c hMem
          cases hAll [] first rest rfl c hMem with
          | inl hSeen => exact hSeen
          | inr hListed => simp at hListed
        · intro before entry after hSplit c hMem
          have hWhole :
              first :: rest =
                (first :: before) ++ entry :: after := by
            rw [hSplit, List.cons_append]
          cases hAll _ entry after hWhole c hMem with
          | inl hSeen => exact .inl (.inl hSeen)
          | inr hListed =>
              obtain ⟨earlier, hBefore, hCall⟩ := hListed
              cases List.mem_cons.mp hBefore with
              | inl hFirst =>
                  rw [hFirst] at hCall
                  exact .inl (.inr hCall)
              | inr hLater =>
                  exact .inr ⟨earlier, hLater, hCall⟩

/- What follows a call that is due, wherever it is listed. -/
theorem followed_iff :
    v.Followed due entries ↔
      ∀ before entry after,
        entries = before ++ entry :: after →
          ∀ c ∈ v.listed entry, due c →
            ∃ later ∈ after, c ∈ v.answered later := by
  induction entries with
  | nil => simp [Followed]
  | cons first rest ih =>
      rw [Followed, ih]
      constructor
      · intro hFollowed before entry after hSplit
        cases before with
        | nil =>
            cases hSplit
            exact hFollowed.1
        | cons head before =>
            rw [List.cons_append, List.cons.injEq] at hSplit
            exact hFollowed.2 before entry after hSplit.2
      · intro hAll
        constructor
        · exact hAll [] first rest rfl
        · intro before entry after hSplit
          apply hAll (first :: before) entry after
          rw [hSplit, List.cons_append]

/- Silent entries at the start make no difference. -/
theorem preceded_append_left
    {silent : List α}
    (hSilent : ∀ entry ∈ silent, v.Silent entry) :
    v.Preceded seen (silent ++ entries) ↔
      v.Preceded seen entries := by
  induction silent with
  | nil => rfl
  | cons first rest ih =>
      rw [List.forall_mem_cons] at hSilent
      rw [List.cons_append, Preceded, hSilent.1.1,
        hSilent.1.2]
      simp [ih hSilent.2]

theorem followed_append_left
    {silent : List α}
    (hSilent : ∀ entry ∈ silent, v.Silent entry) :
    v.Followed due (silent ++ entries) ↔
      v.Followed due entries := by
  induction silent with
  | nil => rfl
  | cons first rest ih =>
      rw [List.forall_mem_cons] at hSilent
      rw [List.cons_append, Followed, hSilent.1.1]
      simp [ih hSilent.2]

/- Nor do silent entries at the end. -/
theorem preceded_append_right
    {silent : List α}
    (hSilent : ∀ entry ∈ silent, v.Silent entry) :
    v.Preceded seen (entries ++ silent) ↔
      v.Preceded seen entries := by
  induction entries generalizing seen with
  | nil =>
      have hNone := @preceded_append_left _ _ v seen []
        silent hSilent
      rw [List.append_nil] at hNone
      exact hNone
  | cons first rest ih =>
      rw [List.cons_append, Preceded, Preceded, ih]

theorem followed_append_right
    {silent : List α}
    (hSilent : ∀ entry ∈ silent, v.Silent entry) :
    v.Followed due (entries ++ silent) ↔
      v.Followed due entries := by
  induction entries with
  | nil =>
      have hNone := @followed_append_left _ _ v due []
        silent hSilent
      rw [List.append_nil] at hNone
      exact hNone
  | cons first rest ih =>
      have hLater : ∀ c,
          (∃ later ∈ rest ++ silent, c ∈ v.answered later) ↔
            ∃ later ∈ rest, c ∈ v.answered later := by
        intro c
        constructor
        · intro hAnswered
          obtain ⟨later, hMem, hCall⟩ := hAnswered
          cases List.mem_append.mp hMem with
          | inl hRest => exact ⟨later, hRest, hCall⟩
          | inr hEnd =>
              rw [(hSilent later hEnd).2] at hCall
              cases hCall
        · intro hAnswered
          obtain ⟨later, hMem, hCall⟩ := hAnswered
          exact ⟨later, List.mem_append_left _ hMem, hCall⟩
      rw [List.cons_append, Followed, Followed, ih]
      simp only [hLater]

end Splits

/-
  Entries are translated one by one, and those that are left
  out are silent.
-/
structure Translates
    (v : View α κ)
    (u : View β κ)
    (f : α → Option β) : Prop where
  dropped : ∀ entry, f entry = none → v.Silent entry
  listed : ∀ entry image, f entry = some image →
    u.listed image = v.listed entry
  answered : ∀ entry image, f entry = some image →
    u.answered image = v.answered entry

section Translations

variable {v : View α κ}
variable {u : View β κ}
variable {f : α → Option β}
variable {seen due : κ → Prop}
variable {entries : List α}

theorem Translates.preceded
    (hTranslates : v.Translates u f) :
    u.Preceded seen (entries.filterMap f) ↔
      v.Preceded seen entries := by
  induction entries generalizing seen with
  | nil => rfl
  | cons entry rest ih =>
      cases hImage : f entry with
      | none =>
          have hSilent := hTranslates.dropped entry hImage
          rw [List.filterMap_cons_none hImage, ih, Preceded,
            hSilent.1, hSilent.2]
          simp
      | some image =>
          rw [List.filterMap_cons_some hImage, Preceded,
            Preceded, ih, hTranslates.listed entry image hImage,
            hTranslates.answered entry image hImage]

theorem Translates.exists_answered
    (hTranslates : v.Translates u f)
    (c : κ) :
    (∃ image ∈ entries.filterMap f, c ∈ u.answered image) ↔
      ∃ entry ∈ entries, c ∈ v.answered entry := by
  constructor
  · intro hAnswered
    obtain ⟨image, hMem, hCall⟩ := hAnswered
    obtain ⟨entry, hEntry, hImage⟩ :=
      List.mem_filterMap.mp hMem
    rw [hTranslates.answered entry image hImage] at hCall
    exact ⟨entry, hEntry, hCall⟩
  · intro hAnswered
    obtain ⟨entry, hMem, hCall⟩ := hAnswered
    cases hImage : f entry with
    | none =>
        rw [(hTranslates.dropped entry hImage).2] at hCall
        cases hCall
    | some image =>
        rw [← hTranslates.answered entry image hImage]
          at hCall
        exact ⟨image,
          List.mem_filterMap.mpr ⟨entry, hMem, hImage⟩, hCall⟩

theorem Translates.followed
    (hTranslates : v.Translates u f) :
    u.Followed due (entries.filterMap f) ↔
      v.Followed due entries := by
  induction entries with
  | nil => rfl
  | cons entry rest ih =>
      cases hImage : f entry with
      | none =>
          have hSilent := hTranslates.dropped entry hImage
          rw [List.filterMap_cons_none hImage, ih, Followed,
            hSilent.1]
          simp
      | some image =>
          rw [List.filterMap_cons_some hImage, Followed,
            Followed, ih, hTranslates.listed entry image hImage]
          simp only [hTranslates.exists_answered]

end Translations

end View

end Transcripts
