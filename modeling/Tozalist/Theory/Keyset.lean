/-
# Tozalist.Theory.Keyset -- reading an ordered list page by page

A reader asks for a page, gets rows and perhaps a cursor, and asks again from the
cursor (`follow`).  Two facts about such readers:

* if every page is the next piece of what is left, and only a last piece comes without a
  cursor, the pieces are the whole list (`Serves.follow_eq`);
* if a cursor is made from the last row of a page and selects rows further on, the
  pieces are the whole list exactly when every such cursor selects the row that comes
  next (`Ordered.follow_page_iff`).  A cursor that skips one row loses it for good.

Whether there is a next page is found by reading one row more (`page`), or taken from the
page being full (`fullPage`).
-/
import Mathlib.Data.List.Basic

namespace Tozalist.Theory.Keyset

set_option autoImplicit false

universe u v w

variable {α : Type u} {β : Type w} {γ : Type v}

/-! ## Following cursors -/

/-- Fetch one page after the other, until one comes without a cursor. -/
def follow (fetch : Option γ → Option (List α × Option γ)) : ℕ → Option γ → Option (List α)
  | 0, _ => none
  | fuel + 1, cursor =>
      match fetch cursor with
      | none => none
      | some (rows, none) => some rows
      | some (rows, some next) => (follow fetch fuel (some next)).map (rows ++ ·)

/-- What was read in some number of pages is read with more allowed. -/
theorem follow_mono {fetch : Option γ → Option (List α × Option γ)} {fuel more : ℕ}
    {cursor : Option γ} {rows : List α} (done : follow fetch fuel cursor = some rows)
    (le : fuel ≤ more) : follow fetch more cursor = some rows := by
  induction fuel generalizing more cursor rows with
  | zero => cases done
  | succ fuel ih =>
      obtain ⟨more, rfl⟩ : ∃ m, more = m + 1 := ⟨more - 1, by omega⟩
      rw [follow] at done ⊢
      rcases answer : fetch cursor with _ | ⟨page, _ | next⟩
      · simp only [answer] at done
        cases done
      · simp only [answer] at done ⊢
        exact done
      · simp only [answer] at done ⊢
        obtain ⟨rest, read, rfl⟩ := Option.map_eq_some_iff.1 done
        simp only [ih read (by omega : fuel ≤ more), Option.map_some]

/-- Readers that agree wherever they get to read the same. -/
theorem follow_congr {fetch fetch' : Option γ → Option (List α × Option γ)}
    {good : Option γ → Prop} (same : ∀ c, good c → fetch c = fetch' c)
    (closed : ∀ c rows next, good c → fetch c = some (rows, some next) → good (some next))
    (fuel : ℕ) {c : Option γ} (here : good c) : follow fetch fuel c = follow fetch' fuel c := by
  induction fuel generalizing c with
  | zero => rfl
  | succ fuel ih =>
      rw [follow, follow, ← same c here]
      rcases answer : fetch c with _ | ⟨rows, _ | next⟩
      · rfl
      · rfl
      · simp only [ih (closed c rows next here answer)]

/-- Reading pages of images is reading the pages. -/
theorem follow_map (f : α → β) (fetch : Option γ → Option (List α × Option γ)) (fuel : ℕ)
    (c : Option γ) :
    follow (fun c => (fetch c).map fun answer => (answer.1.map f, answer.2)) fuel c =
      (follow fetch fuel c).map (List.map f) := by
  induction fuel generalizing c with
  | zero => rfl
  | succ fuel ih =>
      rw [follow, follow]
      rcases fetch c with _ | ⟨rows, _ | next⟩
      · rfl
      · rfl
      · simp only [Option.map_some, ih, Option.map_map]
        congr 1
        funext rest
        simp only [Function.comp, List.map_append]

/-- `fetch` gives out `rest`, at a cursor where `left cursor rest`, by `limit` rows a page. -/
def Serves (fetch : Option γ → Option (List α × Option γ)) (limit : ℕ)
    (left : Option γ → List α → Prop) : Prop :=
  ∀ cursor rest, left cursor rest → ∃ next, fetch cursor = some (rest.take limit, next) ∧
    (next = none → rest.length ≤ limit) ∧
    ∀ c, next = some c → rest ≠ [] ∧ left (some c) (rest.drop limit)

/-- **A reader that is served gets everything**, and the pages end. -/
theorem Serves.follow_eq {fetch : Option γ → Option (List α × Option γ)} {limit : ℕ}
    {left : Option γ → List α → Prop} (serves : Serves fetch limit left) (positive : 0 < limit)
    {cursor : Option γ} {rest : List α} (here : left cursor rest) :
    follow fetch (rest.length + 1) cursor = some rest := by
  generalize size : rest.length = n
  induction n using Nat.strongRecOn generalizing cursor rest with
  | ind n ih =>
      obtain ⟨next, fetched, last, further⟩ := serves cursor rest here
      rw [follow, fetched]
      cases next with
      | none => simp only [List.take_of_length_le (last rfl)]
      | some c =>
          obtain ⟨nonempty, there⟩ := further c rfl
          have some_ := List.length_pos_iff.2 nonempty
          have shorter : (rest.drop limit).length < n := by
            rw [List.length_drop]
            omega
          have tail := follow_mono (ih _ shorter there rfl) (show _ ≤ n by omega)
          simp only [tail, Option.map_some, List.take_append_drop]

/-! ## Cursors made from rows -/

/-- What a cursor selects from the rows. -/
def selected (rows : List α) (after : γ → α → Bool) : Option γ → List α
  | none => rows
  | some c => rows.filter (after c)

/-- A page, with the cursor of its last row when there is more. -/
def page (rows : List α) (after : γ → α → Bool) (cursor : α → γ) (limit : ℕ)
    (c : Option γ) : List α × Option γ :=
  ((selected rows after c).take limit,
    if limit < (selected rows after c).length then
      ((selected rows after c).take limit).getLast?.map cursor
    else none)

/-- The rows stand in the order of their cursors: what a cursor selects goes on to the end,
and a row's cursor selects neither the row nor one before it. -/
structure Ordered (rows : List α) (after : γ → α → Bool) (cursor : α → γ) : Prop where
  onward : rows.Pairwise fun x y => ∀ c, after c x = true → after c y = true
  past : rows.Pairwise fun x y => after (cursor y) x = false
  own : ∀ x ∈ rows, after (cursor x) x = false

/-- What stays selected once it is, is an end of the list. -/
theorem filter_suffix {p : α → Bool} {rows : List α}
    (onward : rows.Pairwise fun x y => p x = true → p y = true) : rows.filter p <:+ rows := by
  induction rows with
  | nil => exact List.suffix_rfl
  | cons x rows ih =>
      obtain ⟨head, tail⟩ := List.pairwise_cons.1 onward
      by_cases here : p x = true
      · have all : ∀ y ∈ x :: rows, p y = true := by
          intro y member
          rcases List.mem_cons.1 member with rfl | later
          · exact here
          · exact head y later here
        exact ⟨[], List.filter_eq_self.2 all⟩
      · rw [List.filter_cons_of_neg here]
        exact (ih tail).trans (List.suffix_cons x rows)

variable {rows : List α} {after : γ → α → Bool} {cursor : α → γ} {limit : ℕ}

theorem Ordered.selected_suffix (ordered : Ordered rows after cursor) (c : Option γ) :
    selected rows after c <:+ rows := by
  cases c with
  | none => exact List.suffix_rfl
  | some c => exact filter_suffix (ordered.onward.imp fun step => step c)

/-- The cursor of a row selects an end of what stands behind it: all of it, if it selects
the first. -/
theorem Ordered.selected_cursor (ordered : Ordered rows after cursor) {before rest : List α}
    {x : α} (split : rows = before ++ x :: rest) :
    selected rows after (some (cursor x)) <:+ rest ∧
      ∀ y ∈ rest.head?, (selected rows after (some (cursor x)) = rest ↔
        after (cursor x) y = true) := by
  subst split
  have own := ordered.own x (by simp)
  have past : ∀ y ∈ before, after (cursor x) y = false := fun y member =>
    (List.pairwise_append.1 ordered.past).2.2 y member x List.mem_cons_self
  have onward : rest.Pairwise fun a b => after (cursor x) a = true → after (cursor x) b = true :=
    ((List.pairwise_append.1 ordered.onward).2.1.of_cons).imp fun step => step (cursor x)
  have cut : selected (before ++ x :: rest) after (some (cursor x)) =
      rest.filter (after (cursor x)) := by
    rw [selected, List.filter_append, List.filter_cons_of_neg (by simp [own]),
      List.filter_eq_nil_iff.2 (by simpa using past), List.nil_append]
  rw [cut]
  refine ⟨filter_suffix onward, ?_⟩
  intro y first
  constructor
  · intro whole
    exact (List.filter_eq_self.1 whole) y (List.mem_of_mem_head? first)
  · intro selects
    cases rest with
    | nil => cases first
    | cons z rest =>
        obtain rfl : z = y := by simpa using first
        apply List.filter_eq_self.2
        intro a member
        rcases List.mem_cons.1 member with rfl | later
        · exact selects
        · exact (List.pairwise_cons.1 onward).1 a later selects

/-- The last row of a full page, with what is behind it. -/
theorem Ordered.split_at (ordered : Ordered rows after cursor) (positive : 0 < limit)
    (c : Option γ) (last : limit - 1 < (selected rows after c).length) :
    ∃ before, rows = before ++
      (selected rows after c)[limit - 1] :: (selected rows after c).drop limit := by
  obtain ⟨before, split⟩ := ordered.selected_suffix c
  refine ⟨before ++ (selected rows after c).take (limit - 1), ?_⟩
  have step := List.drop_eq_getElem_cons last
  rw [show limit - 1 + 1 = limit by omega] at step
  rw [List.append_assoc, ← step, List.take_append_drop, split]

/-- A page with more behind it. -/
theorem Ordered.page_next (ordered : Ordered rows after cursor) (positive : 0 < limit)
    {c : Option γ} (long : limit < (selected rows after c).length) :
    ∃ x y, (selected rows after c)[limit - 1]? = some x ∧
      (selected rows after c)[limit]? = some y ∧
      page rows after cursor limit c = ((selected rows after c).take limit, some (cursor x)) ∧
      selected rows after (some (cursor x)) <:+ (selected rows after c).drop limit ∧
      (selected rows after (some (cursor x)) = (selected rows after c).drop limit ↔
        after (cursor x) y = true) := by
  have last : limit - 1 < (selected rows after c).length := by omega
  obtain ⟨before, pieces⟩ := ordered.split_at positive c last
  obtain ⟨suffix_, exact_⟩ := ordered.selected_cursor pieces
  refine ⟨_, _, List.getElem?_eq_getElem last, List.getElem?_eq_getElem long, ?_, suffix_,
    exact_ _ ?_⟩
  · rw [page, if_pos long, List.getLast?_take, if_neg (by omega), List.getElem?_eq_getElem last]
    rfl
  · rw [List.head?_drop, List.getElem?_eq_getElem long]
    rfl

/-- What is read stands, in this order, in what was selected. -/
theorem Ordered.follow_sublist (ordered : Ordered rows after cursor) (positive : 0 < limit)
    {fuel : ℕ} {c : Option γ} {out : List α}
    (done : follow (fun c => some (page rows after cursor limit c)) fuel c = some out) :
    out.Sublist (selected rows after c) := by
  induction fuel generalizing c out with
  | zero => cases done
  | succ fuel ih =>
      rw [follow] at done
      by_cases long : limit < (selected rows after c).length
      · obtain ⟨x, y, -, -, is, suffix_, -⟩ := ordered.page_next positive long
        simp only [is] at done
        obtain ⟨rest, read, rfl⟩ := Option.map_eq_some_iff.1 done
        have later := (ih read).trans suffix_.sublist
        have whole := (List.Sublist.refl ((selected rows after c).take limit)).append later
        rwa [List.take_append_drop] at whole
      · simp only [page, if_neg long, Option.some.injEq] at done
        rw [← done]
        exact List.take_sublist _ _

/-- Past a full page, the pages are right if the later ones are. -/
theorem follow_next_iff {fetch : Option γ → Option (List α × Option γ)} {c : Option γ} {next : γ}
    {pieces rest : List α} (is : fetch c = some (pieces, some next)) :
    (∃ fuel, follow fetch fuel c = some (pieces ++ rest)) ↔
      ∃ fuel, follow fetch fuel (some next) = some rest := by
  constructor
  · rintro ⟨_ | fuel, done⟩
    · cases done
    · rw [follow] at done
      simp only [is] at done
      obtain ⟨out, read, joined⟩ := Option.map_eq_some_iff.1 done
      exact ⟨fuel, by rw [read, List.append_cancel_left joined]⟩
  · rintro ⟨fuel, done⟩
    refine ⟨fuel + 1, ?_⟩
    rw [follow]
    simp only [is, done, Option.map_some]

/-- The row after every full page is selected by the cursor of the row before it. -/
def Joined (after : γ → α → Bool) (cursor : α → γ) (limit : ℕ) (rows : List α) : Prop :=
  ∀ k, 0 < k → ∀ x y, rows[k * limit - 1]? = some x → rows[k * limit]? = some y →
    after (cursor x) y = true

/-- The first full page apart, these are the joints of the rest. -/
theorem joined_iff_drop (positive : 0 < limit) {x y : α} (last : rows[limit - 1]? = some x)
    (next : rows[limit]? = some y) :
    Joined after cursor limit rows ↔
      after (cursor x) y = true ∧ Joined after cursor limit (rows.drop limit) := by
  have shift : ∀ k, 0 < k → (rows.drop limit)[k * limit - 1]? = rows[(k + 1) * limit - 1]? ∧
      (rows.drop limit)[k * limit]? = rows[(k + 1) * limit]? := by
    intro k first
    have some_ := Nat.mul_pos first positive
    rw [List.getElem?_drop, List.getElem?_drop, Nat.succ_mul]
    exact ⟨by congr 1; omega, by congr 1; omega⟩
  constructor
  · intro joined
    refine ⟨joined 1 (by decide) x y (by rw [Nat.one_mul, last]) (by rw [Nat.one_mul, next]), ?_⟩
    intro k first a b atA atB
    rw [(shift k first).1] at atA
    rw [(shift k first).2] at atB
    exact joined (k + 1) (by omega) a b atA atB
  · rintro ⟨selects, joined⟩ k first a b atA atB
    by_cases initial : k = 1
    · subst initial
      rw [Nat.one_mul, last] at atA
      rw [Nat.one_mul, next] at atB
      cases atA
      cases atB
      exact selects
    · obtain ⟨k, rfl⟩ : ∃ m, k = m + 1 := ⟨k - 1, by omega⟩
      have later : 0 < k := by omega
      rw [← (shift k later).1] at atA
      rw [← (shift k later).2] at atB
      exact joined k later a b atA atB

/-- A list of at most one page has no joints. -/
theorem joined_of_short (short : rows.length ≤ limit) : Joined after cursor limit rows := by
  intro k first x y _ atY
  have more := Nat.mul_le_mul_right limit first
  rw [List.getElem?_eq_none (by omega)] at atY
  cases atY

/-- **The pages make up what was selected exactly when the cursor of every full page selects
the row behind it.** -/
theorem Ordered.follow_selected_iff (ordered : Ordered rows after cursor) (positive : 0 < limit)
    (c : Option γ) :
    (∃ fuel, follow (fun c => some (page rows after cursor limit c)) fuel c =
        some (selected rows after c)) ↔ Joined after cursor limit (selected rows after c) := by
  generalize size : (selected rows after c).length = n
  induction n using Nat.strongRecOn generalizing c with
  | ind n ih =>
      by_cases long : limit < (selected rows after c).length
      · obtain ⟨x, y, last, next, is, suffix_, whole⟩ := ordered.page_next positive long
        have fewer := suffix_.length_le
        rw [List.length_drop] at fewer
        have further := ih _ (by omega) (some (cursor x)) rfl
        rw [joined_iff_drop positive last next]
        by_cases selects : after (cursor x) y = true
        · have rest := whole.2 selects
          rw [← List.take_append_drop limit (selected rows after c), ← rest,
            follow_next_iff (congrArg some is), further]
          simp only [List.take_append_drop, selects, true_and, rest]
        · -- the row that was skipped is in no later page
          refine iff_of_false ?_ fun joined => selects joined.1
          rintro ⟨_ | fuel, done⟩
          · cases done
          · rw [follow] at done
            simp only [is] at done
            obtain ⟨out, read, joined⟩ := Option.map_eq_some_iff.1 done
            have most := (ordered.follow_sublist positive read).length_le
            have shorter : (selected rows after (some (cursor x))).length <
                ((selected rows after c).drop limit).length :=
              Nat.lt_of_le_of_ne suffix_.length_le fun same =>
                selects (whole.1 (suffix_.eq_of_length same))
            have lengths := congrArg List.length joined
            rw [List.length_append, List.length_take] at lengths
            rw [List.length_drop] at shorter
            omega
      · refine iff_of_true ⟨1, ?_⟩ (joined_of_short (by omega))
        rw [follow]
        simp only [page, if_neg long, Option.some.injEq]
        exact List.take_of_length_le (by omega)

/-- **From the start, and for images of the rows.** -/
theorem Ordered.follow_page_iff (ordered : Ordered rows after cursor) (positive : 0 < limit)
    (f : α → β) :
    (∃ fuel, follow (fun c => some ((page rows after cursor limit c).1.map f,
        (page rows after cursor limit c).2)) fuel none = some (rows.map f)) ↔
      Joined after cursor limit rows := by
  have whole := ordered.follow_selected_iff positive none
  have images : ∀ fuel, follow (fun c => some ((page rows after cursor limit c).1.map f,
      (page rows after cursor limit c).2)) fuel none =
      (follow (fun c => some (page rows after cursor limit c)) fuel none).map (List.map f) :=
    fun fuel => follow_map f (fun c => some (page rows after cursor limit c)) fuel none
  rw [selected] at whole
  rw [← whole]
  constructor
  · rintro ⟨fuel, done⟩
    rw [images] at done
    obtain ⟨out, read, same⟩ := Option.map_eq_some_iff.1 done
    have lengths := congrArg List.length same
    rw [List.length_map, List.length_map] at lengths
    have sub : out.Sublist rows := ordered.follow_sublist positive read
    exact ⟨fuel, by rw [read, sub.eq_of_length lengths]⟩
  · rintro ⟨fuel, done⟩
    exact ⟨fuel, by rw [images, done, Option.map_some]⟩

/-! ## Pages without a look ahead -/

/-- A page, with the cursor of its last row when it is full; behind a full last page comes an
empty one. -/
def fullPage (rows : List α) (after : γ → α → Bool) (cursor : α → γ) (limit : ℕ)
    (c : Option γ) : List α × Option γ :=
  ((selected rows after c).take limit,
    if ((selected rows after c).take limit).length < limit then none
    else ((selected rows after c).take limit).getLast?.map cursor)

/-- **Where the cursor of every row selects all rows behind it, full pages serve them all.** -/
theorem Ordered.fullPage_serves (ordered : Ordered rows after cursor) (positive : 0 < limit)
    (strict : rows.Pairwise fun x y => after (cursor x) y = true) :
    Serves (fun c => some (fullPage rows after cursor limit c)) limit
      fun c rest => rest = selected rows after c := by
  rintro c rest rfl
  by_cases short : (selected rows after c).length < limit
  · have le := Nat.le_of_lt short
    refine ⟨none, ?_, fun _ => le, nofun⟩
    simp only [fullPage, List.take_of_length_le le, if_pos short]
  · have last : limit - 1 < (selected rows after c).length := by omega
    refine ⟨some (cursor (selected rows after c)[limit - 1]), ?_, nofun, ?_⟩
    · have full : ¬ ((selected rows after c).take limit).length < limit := by
        rw [List.length_take]
        omega
      simp only [fullPage, if_neg full]
      rw [List.getLast?_take, if_neg (by omega), List.getElem?_eq_getElem last]
      rfl
    · rintro _ ⟨⟩
      refine ⟨fun empty => by rw [empty, List.length_nil] at last; omega, ?_⟩
      obtain ⟨before, pieces⟩ := ordered.split_at positive c last
      obtain ⟨suffix_, exact_⟩ := ordered.selected_cursor pieces
      cases behind : (selected rows after c).drop limit with
      | nil =>
          rw [behind] at suffix_
          exact (List.suffix_nil.1 suffix_).symm
      | cons y rest =>
          rw [behind] at exact_ pieces
          have tail := (List.pairwise_append.1 (pieces ▸ strict)).2.1
          refine ((exact_ y rfl).2 ?_).symm
          exact (List.pairwise_cons.1 tail).1 y List.mem_cons_self

end Tozalist.Theory.Keyset
