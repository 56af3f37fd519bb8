import Mathlib.Data.List.Forall2
import Mathlib.Data.List.Infix
import Mathlib.Tactic.Common

/-!
# Hash chains

An entry of a chain stores a digest that is computed from its content and from
the digest before it. When digests pin what they are chained to, an entry fits in
one place only: a chain made of the entries of another one is a prefix of it. When
they pin the content as well, the last digest stands for the whole chain.
-/

namespace HashChain

variable {ρ δ : Type*} (digest : ρ → δ) (chained : ρ → Option δ → δ)

/-- Every digest is the one computed from the entry and the digest before it. -/
def Linked : Option δ → List ρ → Prop
  | _, [] => True
  | previous, e :: es => digest e = chained e previous ∧ Linked (some (digest e)) es

def previousAt (first : Option δ) (entries : List ρ) : ℕ → Option δ
  | 0 => first
  | i + 1 => entries[i]?.map digest

/-- What an entry can be chained to: nothing, or one of the digests. -/
def links (entries : List ρ) : List (Option δ) := none :: entries.map fun e => some (digest e)

/-- The digests of these entries pin what they are chained to. -/
def Pins (entries : List ρ) : Prop :=
  ∀ e ∈ entries, ∀ e' ∈ entries, ∀ p ∈ links digest entries, ∀ p' ∈ links digest entries,
    chained e p = chained e' p' → p = p'

variable {digest chained} {entries others : List ρ} {e e' : ρ} {first : Option δ} {i k : ℕ}

theorem Linked.digest_eq (h : Linked digest chained first entries) (hi : entries[i]? = some e) :
    digest e = chained e (previousAt digest first entries i) := by
  induction entries generalizing first i with
  | nil => simp at hi
  | cons head tail ih =>
    cases i with
    | zero =>
      simp only [List.getElem?_cons_zero, Option.some.injEq] at hi
      subst hi
      exact h.1
    | succ i =>
      rw [List.getElem?_cons_succ] at hi
      have hdigest := ih h.2 hi
      cases i with
      | zero => exact hdigest
      | succ i => exact hdigest

/-- An entry that is replaced by one with its digest keeps the chain exactly when the digest is
computed from the new one as well. -/
theorem Linked.set_iff (e' : ρ) (h : Linked digest chained first entries)
    (hi : entries[i]? = some e) (hdigest : digest e' = digest e) :
    Linked digest chained first (entries.set i e') ↔
      digest e' = chained e' (previousAt digest first entries i) := by
  induction entries generalizing first i with
  | nil => simp at hi
  | cons head tail ih =>
    cases i with
    | zero =>
      simp only [List.getElem?_cons_zero, Option.some.injEq] at hi
      subst hi
      rw [List.set_cons_zero, Linked, hdigest]
      exact and_iff_left h.2
    | succ i =>
      rw [List.getElem?_cons_succ] at hi
      have htail := ih h.2 hi
      rw [List.set_cons_succ, Linked, htail]
      cases i with
      | zero => exact and_iff_right h.1
      | succ i => exact and_iff_right h.1

theorem linked_concat :
    Linked digest chained first (entries ++ [e]) ↔
      Linked digest chained first entries ∧
        digest e = chained e ((entries.getLast?.map digest).or first) := by
  induction entries generalizing first with
  | nil => simp [Linked]
  | cons head tail ih =>
    rw [List.cons_append, Linked, Linked, ih, and_assoc]
    have hlast : ((head :: tail).getLast?.map digest).or first =
        (tail.getLast?.map digest).or (some (digest head)) := by
      rw [List.getLast?_cons]
      cases tail.getLast? <;> simp
    rw [hlast]

theorem previousAt_succ (digest : ρ → δ) (first : Option δ) (hi : entries[i + 1]? = some e) :
    ∃ d, entries[i]? = some d ∧ previousAt digest first entries (i + 1) = some (digest d) := by
  have hlt : i + 1 < entries.length := (List.getElem?_eq_some_iff.mp hi).1
  have hd : entries[i]? = some entries[i] := List.getElem?_eq_getElem (by omega)
  refine ⟨_, hd, ?_⟩
  rw [previousAt, hd]
  rfl

theorem previousAt_mem_links (hsub : others ⊆ entries) :
    previousAt digest none others i ∈ links digest entries := by
  cases i with
  | zero => exact List.mem_cons_self
  | succ i =>
    cases he : others[i]? with
    | none => simp [previousAt, he, links]
    | some e =>
      have hmem : e ∈ entries := hsub (List.mem_of_getElem? he)
      simp only [previousAt, he, Option.map_some, links]
      exact List.mem_cons_of_mem _ (List.mem_map_of_mem hmem)

theorem Pins.previousAt_eq (hpins : Pins digest chained entries)
    (h : Linked digest chained none entries) (h' : Linked digest chained none others)
    (hsub : others ⊆ entries) (hi : entries[i]? = some e) (hk : others[k]? = some e')
    (heq : digest e = digest e') :
    previousAt digest none entries i = previousAt digest none others k := by
  rw [h.digest_eq hi, h'.digest_eq hk] at heq
  apply hpins e (List.mem_of_getElem? hi) e' (hsub (List.mem_of_getElem? hk))
  · exact previousAt_mem_links (List.Subset.refl entries)
  · exact previousAt_mem_links hsub
  · exact heq

theorem Linked.digest_ne (h : Linked digest chained none entries)
    (hpins : Pins digest chained entries) (hik : i < k) (hi : entries[i]? = some e)
    (hk : entries[k]? = some e') : digest e ≠ digest e' := by
  intro heq
  have hprevious := hpins.previousAt_eq h h (List.Subset.refl entries) hi hk heq
  induction i generalizing k e e' with
  | zero =>
    obtain ⟨k, rfl⟩ : ∃ j, k = j + 1 := ⟨k - 1, by omega⟩
    obtain ⟨d, -, hd⟩ := previousAt_succ digest none hk
    rw [hd] at hprevious
    cases hprevious
  | succ i ih =>
    obtain ⟨k, rfl⟩ : ∃ j, k = j + 1 := ⟨k - 1, by omega⟩
    obtain ⟨d, hdi, hd⟩ := previousAt_succ digest none hi
    obtain ⟨d', hdk, hd'⟩ := previousAt_succ digest none hk
    rw [hd, hd'] at hprevious
    have hsame : digest d = digest d' := Option.some.inj hprevious
    exact ih (by omega) hdi hdk hsame
      (hpins.previousAt_eq h h (List.Subset.refl entries) hdi hdk hsame)

theorem Linked.getElem?_of_subset (h : Linked digest chained none entries)
    (hpins : Pins digest chained entries) (h' : Linked digest chained none others)
    (hsub : others ⊆ entries) (hk : others[k]? = some e) : entries[k]? = some e := by
  obtain ⟨i, hi⟩ := List.getElem?_of_mem (hsub (List.mem_of_getElem? hk))
  have hprevious := hpins.previousAt_eq h h' hsub hi hk rfl
  suffices hik : i = k by rwa [hik] at hi
  induction k generalizing i e with
  | zero =>
    cases i with
    | zero => rfl
    | succ i =>
      obtain ⟨d, -, hd⟩ := previousAt_succ digest none hi
      rw [hd] at hprevious
      cases hprevious
  | succ k ih =>
    obtain ⟨d', hdk, hd'⟩ := previousAt_succ digest none hk
    cases i with
    | zero =>
      rw [hd'] at hprevious
      cases hprevious
    | succ i =>
      obtain ⟨d, hdi, hd⟩ := previousAt_succ digest none hi
      rw [hd, hd'] at hprevious
      have hsame : digest d = digest d' := Option.some.inj hprevious
      obtain ⟨j, hj⟩ := List.getElem?_of_mem (hsub (List.mem_of_getElem? hdk))
      have hjk : j = k := ih hdk j hj (hpins.previousAt_eq h h' hsub hj hdk rfl)
      -- `d` and `d'` have one digest, so they are in one place of the longer chain
      rcases Nat.lt_trichotomy i j with hlt | heq | hlt
      · exact absurd hsame (h.digest_ne hpins hlt hdi hj)
      · omega
      · exact absurd hsame.symm (h.digest_ne hpins hlt hj hdi)

theorem Linked.prefix_of_subset (h : Linked digest chained none entries)
    (hpins : Pins digest chained entries) (h' : Linked digest chained none others)
    (hsub : others ⊆ entries) : others <+: entries := by
  rw [List.prefix_iff_getElem?]
  intro k hk
  exact h.getElem?_of_subset hpins h' hsub (List.getElem?_eq_getElem hk)

variable {R : ρ → ρ → Prop}

/-- Where a digest says what its entry is and what it is chained to, the last digest says what
the whole chain is. -/
theorem Linked.forall₂_of_getLast?_eq (h : Linked digest chained none entries)
    (h' : Linked digest chained none others)
    (hpins : ∀ e ∈ entries, ∀ e' ∈ others, ∀ p ∈ links digest entries,
      ∀ p' ∈ links digest others, chained e p = chained e' p' → R e e' ∧ p = p')
    (hlast : entries.getLast?.map digest = others.getLast?.map digest) :
    List.Forall₂ R entries others := by
  induction entries using List.reverseRecOn generalizing others with
  | nil =>
    cases others using List.reverseRecOn with
    | nil => exact List.Forall₂.nil
    | append_singleton others e' => simp at hlast
  | append_singleton entries e ih =>
    cases others using List.reverseRecOn with
    | nil => simp at hlast
    | append_singleton others e' =>
      rw [linked_concat, Option.or_none] at h h'
      rw [List.getLast?_concat, List.getLast?_concat, Option.map_some, Option.map_some,
        Option.some.injEq, h.2, h'.2] at hlast
      have hlinks : ∀ (es : List ρ) (x : ρ), links digest es ⊆ links digest (es ++ [x]) := by
        intro es x p hp
        simp only [links, List.map_append, List.mem_cons, List.mem_append] at hp ⊢
        exact hp.imp_right Or.inl
      have hprevious : ∀ (es : List ρ) (x : ρ),
          es.getLast?.map digest ∈ links digest (es ++ [x]) := by
        intro es x
        apply hlinks
        cases hes : es.getLast? with
        | none => exact List.mem_cons_self
        | some d =>
          exact List.mem_cons_of_mem _ (List.mem_map_of_mem (List.mem_of_getLast? hes))
      obtain ⟨hsame, hbefore⟩ := hpins e (by simp) e' (by simp) _ (hprevious entries e) _
        (hprevious others e') hlast
      refine List.rel_append (ih h.1 h'.1 ?_ hbefore) (List.Forall₂.cons hsame List.Forall₂.nil)
      intro d hd d' hd' p hp p' hp'
      exact hpins d (List.mem_append_left _ hd) d' (List.mem_append_left _ hd') p
        (hlinks _ _ hp) p' (hlinks _ _ hp')

theorem Linked.getLast?_eq_of_forall₂ (h : Linked digest chained first entries)
    (h' : Linked digest chained first others)
    (hsame : List.Forall₂ (fun e e' => chained e = chained e') entries others) :
    entries.getLast?.map digest = others.getLast?.map digest := by
  induction hsame generalizing first with
  | nil => rfl
  | @cons e e' es es' hchained htail ih =>
    have hdigest : digest e = digest e' := by rw [h.1, h'.1, hchained]
    have hlast := ih h.2 (hdigest ▸ h'.2)
    rw [List.getLast?_cons, List.getLast?_cons, Option.map_some, Option.map_some]
    cases htail with
    | nil => simp [hdigest]
    | cons _ _ =>
      simp only [List.getLast?_cons, Option.getD_some, Option.map_some] at hlast ⊢
      exact hlast

end HashChain
