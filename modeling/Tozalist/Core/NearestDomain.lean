/-
# Tozalist.Core.NearestDomain -- the search for the nearest domain is exact

`levenshtein` fills a table of distances row by row, one row for each prefix of the first text,
and stops early: where the lengths alone are too far apart, and where a whole row is above the
limit.  `closestKnownDomain` compares with a limit of one or two, so most distances it sees are
only known to be too large.

* `levenshteinRow_row`: a row of the table has the distances of one prefix to all of the other
  text's;
* `levenshtein_spec`: the cut-off distance is the true one up to the limit, and above it beyond;
* `closestKnownDomain_exact`: the search finds the first domain of the list at the least true
  distance, within the bound for the length, or none.
-/
import Tozalist.Core.DomainTypo
import Tozalist.Theory.EditDistance

namespace Tozalist.Core

set_option autoImplicit false

open Theory (editDistance editDistance_concat editDistance_length_le editDistance_nil_left
  editDistance_nil_right editDistance_self exists_prefix_le)

/-! ## The table -/

/-- The distances of `a` to `pre` and to all that goes on in `b`. -/
def distancesFrom (a pre : JsString) : JsString → List ℕ
  | [] => [editDistance a pre]
  | v :: b => editDistance a pre :: distancesFrom a (pre ++ [v]) b

theorem distancesFrom_head (a pre b : JsString) :
    (distancesFrom a pre b).headD 0 = editDistance a pre := by
  cases b <;> rfl

theorem mem_distancesFrom (a pre b₁ b₂ : JsString) :
    editDistance a (pre ++ b₁) ∈ distancesFrom a pre (b₁ ++ b₂) := by
  induction b₁ generalizing pre with
  | nil =>
      rw [List.append_nil, List.nil_append]
      cases b₂ <;> exact List.mem_cons_self
  | cons v b₁ ih =>
      have later := ih (pre ++ [v])
      rw [List.append_assoc] at later
      exact List.mem_cons_of_mem _ later

theorem getLastD_distancesFrom (a pre b : JsString) (n : ℕ) :
    (distancesFrom a pre b).getLastD n = editDistance a (pre ++ b) := by
  induction b generalizing pre n with
  | nil =>
      rw [List.append_nil]
      rfl
  | cons v b ih =>
      rw [distancesFrom, List.getLastD_cons, ih, List.append_assoc]
      rfl

/-- The first row. -/
theorem distancesFrom_nil (pre b : JsString) :
    distancesFrom [] pre b = List.range' pre.length (b.length + 1) := by
  induction b generalizing pre with
  | nil => rw [distancesFrom, editDistance_nil_left]; rfl
  | cons v b ih =>
      rw [distancesFrom, ih, editDistance_nil_left, List.length_append, List.length_cons]
      rfl

/-- **A row from the row above.** -/
theorem levenshteinRow_row (a pre b : JsString) (unit : UInt16) :
    editDistance (a ++ [unit]) pre ::
        levenshteinRow unit b (distancesFrom a pre b) (editDistance (a ++ [unit]) pre) =
      distancesFrom (a ++ [unit]) pre b := by
  induction b generalizing pre with
  | nil => rfl
  | cons v b ih =>
      have value : min (editDistance a pre + if unit = v then 0 else 1)
          (min (editDistance (a ++ [unit]) pre + 1)
            ((distancesFrom a (pre ++ [v]) b).headD 0 + 1)) =
          editDistance (a ++ [unit]) (pre ++ [v]) := by
        rw [distancesFrom_head, editDistance_concat,
          min_comm (editDistance (a ++ [unit]) pre + 1)]
      rw [distancesFrom, distancesFrom, levenshteinRow, value, ih]

theorem foldl_min_le {row : List ℕ} (n : ℕ) : row.foldl min n ≤ n ∧ ∀ d ∈ row, row.foldl min n ≤ d := by
  induction row generalizing n with
  | nil => exact ⟨le_rfl, fun _ none_ => absurd none_ List.not_mem_nil⟩
  | cons d row ih =>
      obtain ⟨start, rest⟩ := ih (min n d)
      refine ⟨start.trans (min_le_left n d), ?_⟩
      intro e member
      rcases List.mem_cons.1 member with rfl | later
      · exact start.trans (min_le_right n e)
      · exact rest e later

/-- What a distance up to a limit should be: exact within it, and beyond it otherwise. -/
def ExactUpTo (limit distance found : ℕ) : Prop :=
  (distance ≤ limit → found = distance) ∧ (limit < distance → limit < found)

theorem ExactUpTo.beyond {limit distance : ℕ} (far : limit < distance) :
    ExactUpTo limit distance (limit + 1) :=
  ⟨fun near => absurd near (Nat.not_le.2 far), fun _ => Nat.lt_succ_self limit⟩

/-- **The rows up to the cut-off.**  A row that is above the limit as a whole leaves no way back
under it. -/
theorem levenshteinRows_exact (a rest b : JsString) (limit : ℕ) :
    ExactUpTo limit (editDistance (a ++ rest) b)
      (levenshteinRows b limit rest (a.length + 1) (distancesFrom a [] b)) := by
  induction rest generalizing a with
  | nil =>
      rw [levenshteinRows, getLastD_distancesFrom, List.append_nil, List.nil_append]
      exact ⟨fun _ => rfl, id⟩
  | cons u rest ih =>
      have first : editDistance (a ++ [u]) [] = a.length + 1 := by
        rw [editDistance_nil_right, List.length_append]
        rfl
      have row : (a.length + 1) :: levenshteinRow u b (distancesFrom a [] b) (a.length + 1) =
          distancesFrom (a ++ [u]) [] b := by
        rw [← first]
        exact levenshteinRow_row a [] b u
      have whole : a ++ u :: rest = (a ++ [u]) ++ rest := by rw [List.append_assoc]; rfl
      rw [levenshteinRows, row, whole]
      split
      · rename_i above
        obtain ⟨b₁, b₂, rfl, near⟩ := exists_prefix_le (a ++ [u]) rest b
        have least := (foldl_min_le (a.length + 1)).2 _ (mem_distancesFrom (a ++ [u]) [] b₁ b₂)
        exact .beyond (by rw [List.nil_append] at least; omega)
      · have later := ih (a ++ [u])
        rwa [List.length_append] at later

/-- **The cut-off distance is exact up to the limit.** -/
theorem levenshtein_spec (a b : JsString) (limit : ℕ) :
    ExactUpTo limit (editDistance a b) (levenshtein a b limit) := by
  unfold levenshtein
  split
  · rename_i same
    rw [same, editDistance_self]
    exact ⟨fun _ => rfl, fun far => absurd far (Nat.not_lt_zero limit)⟩
  · split
    · rename_i apart
      have lengths := editDistance_length_le a b
      exact .beyond (by omega)
    · have rows := levenshteinRows_exact [] a b limit
      rw [distancesFrom_nil] at rows
      rw [List.range_eq_range']
      exact rows

/-! ## The search -/

/-- A domain is the first of a list at the least distance. -/
def FirstLeast (distance : JsString → ℕ) (domains : List JsString) (k : JsString) : Prop :=
  ∃ before after, domains = before ++ k :: after ∧ (∀ d ∈ before, distance k < distance d) ∧
    ∀ d ∈ after, distance k ≤ distance d

section Search

variable {distance : JsString → ℕ} {domains : List JsString} {k other : JsString}

theorem FirstLeast.le (first : FirstLeast distance domains k) :
    ∀ d ∈ domains, distance k ≤ distance d := by
  obtain ⟨before, after, rfl, nearer, near⟩ := first
  intro d member
  rcases List.mem_append.1 member with earlier | here
  · exact (nearer d earlier).le
  · rcases List.mem_cons.1 here with rfl | later
    · exact le_rfl
    · exact near d later

theorem FirstLeast.mem (first : FirstLeast distance domains k) : k ∈ domains := by
  obtain ⟨before, after, rfl, -, -⟩ := first
  exact List.mem_append_right _ List.mem_cons_self

/-- There is one first domain at the least distance. -/
theorem FirstLeast.unique (first : FirstLeast distance domains k)
    (second : FirstLeast distance domains other) : k = other := by
  have same : distance k = distance other := le_antisymm (first.le other second.mem)
    (second.le k first.mem)
  obtain ⟨before, after, rfl, nearer, -⟩ := first
  obtain ⟨before', after', split_, nearer', -⟩ := second
  rcases List.append_eq_append_iff.1 split_ with ⟨mid, rfl, rest⟩ | ⟨mid, rfl, rest⟩
  · cases mid with
    | nil => exact (List.cons.inj rest).1
    | cons d mid =>
        obtain ⟨rfl, -⟩ := List.cons.inj rest
        have strict := nearer' k (List.mem_append_right _ List.mem_cons_self)
        omega
  · cases mid with
    | nil => exact (List.cons.inj rest).1.symm
    | cons d mid =>
        obtain ⟨rfl, -⟩ := List.cons.inj rest
        have strict := nearer other (List.mem_append_right _ List.mem_cons_self)
        omega

/-- A domain that is not nearer changes nothing. -/
theorem FirstLeast.concat (first : FirstLeast distance domains k)
    (near : distance k ≤ distance other) : FirstLeast distance (domains ++ [other]) k := by
  obtain ⟨before, after, rfl, nearer, rest⟩ := first
  refine ⟨before, after ++ [other], by rw [List.append_assoc]; rfl, nearer, ?_⟩
  intro d member
  rcases List.mem_append.1 member with old | new
  · exact rest d old
  · obtain rfl := List.mem_singleton.1 new
    exact near

/-- A domain that is nearer than all before it. -/
theorem FirstLeast.nearer (nearer : ∀ d ∈ domains, distance other < distance d) :
    FirstLeast distance (domains ++ [other]) other :=
  ⟨domains, [], rfl, nearer, fun _ none_ => absurd none_ List.not_mem_nil⟩

/-- What the search knows of the domains it has seen. -/
inductive Best (distance : JsString → ℕ) (limit : ℕ) (seen : List JsString) :
    Option JsString × ℕ → Prop
  | nothing (far : ∀ d ∈ seen, limit < distance d) : Best distance limit seen (none, limit + 1)
  | found {k : JsString} (near : distance k ≤ limit) (first : FirstLeast distance seen k) :
      Best distance limit seen (some k, distance k)

/-- **One more domain.**  What is compared is exact as far as it can win. -/
theorem Best.step {domain known : JsString} {limit : ℕ} {seen : List JsString}
    {best : Option JsString × ℕ} (so_far : Best (editDistance domain) limit seen best) :
    Best (editDistance domain) limit (seen ++ [known]) (closer domain limit best known) := by
  obtain ⟨exact_, beyond⟩ := levenshtein_spec domain known limit
  unfold closer
  dsimp only
  by_cases near : editDistance domain known ≤ limit
  · rw [exact_ near]
    cases so_far with
    | nothing far =>
        rw [if_pos (Nat.lt_succ_of_le near)]
        exact .found near (.nearer fun d member => near.trans_lt (far d member))
    | @found k within first =>
        dsimp only
        split
        · rename_i nearer
          exact .found near (.nearer fun d member => nearer.trans_le (first.le d member))
        · rename_i farther
          exact .found within (first.concat (Nat.not_lt.1 farther))
  · have far := beyond (Nat.not_le.1 near)
    cases so_far with
    | nothing others =>
        rw [if_neg (Nat.not_lt.2 far)]
        refine .nothing fun d member => ?_
        rcases List.mem_append.1 member with old | new
        · exact others d old
        · obtain rfl := List.mem_singleton.1 new
          exact Nat.not_le.1 near
    | @found k within first =>
        dsimp only
        rw [if_neg (by omega)]
        exact .found within (first.concat (by omega))

/-- **The whole search.** -/
theorem Best.search {domain : JsString} {limit : ℕ} {seen : List JsString}
    {best : Option JsString × ℕ} (so_far : Best (editDistance domain) limit seen best)
    (rest : List JsString) :
    Best (editDistance domain) limit (seen ++ rest) (rest.foldl (closer domain limit) best) := by
  induction rest generalizing seen best with
  | nil => rwa [List.append_nil]
  | cons known rest ih =>
      have next := @ih (seen ++ [known]) (closer domain limit best known) so_far.step
      rwa [List.append_assoc] at next

end Search

/-- How many edits a domain of a length may be away: one from 8 characters, two from 10. -/
def editBound (length : ℕ) : Option ℕ :=
  if length < 8 then none else if length < 10 then some 1 else some 2

/-- **The nearest known domain.**  The search ends without a domain when all are beyond the
bound, and else with the first one at the least distance. -/
theorem closestKnownDomain_cases (domain : JsString) :
    (editBound domain.length = none ∧ closestKnownDomain domain = none) ∨
      ∃ bound, editBound domain.length = some bound ∧
        ((closestKnownDomain domain = none ∧
            ∀ k ∈ knownProviderDomains, bound < editDistance domain k) ∨
          ∃ k, closestKnownDomain domain = some k ∧ editDistance domain k ≤ bound ∧
            FirstLeast (editDistance domain) knownProviderDomains k) := by
  unfold closestKnownDomain editBound minLengthForDistanceMatch minLengthForTwoEdits
  by_cases short : domain.length < 8
  · rw [if_pos short, if_pos short]
    exact .inl ⟨rfl, rfl⟩
  rw [if_neg short, if_neg short]
  refine .inr ⟨if domain.length < 10 then 1 else 2, by split <;> rfl, ?_⟩
  dsimp only
  generalize (if domain.length < 10 then 1 else 2) = limit
  have start : Best (editDistance domain) limit [] (none, limit + 1) :=
    .nothing fun _ none_ => absurd none_ List.not_mem_nil
  have searched := start.search knownProviderDomains
  rw [List.nil_append] at searched
  generalize knownProviderDomains.foldl (closer domain limit) (none, limit + 1) = best at searched
  cases searched with
  | nothing far =>
      rw [if_neg (by omega)]
      exact .inl ⟨rfl, far⟩
  | @found k near first =>
      rw [if_pos near]
      exact .inr ⟨k, rfl, near, first⟩

/-- **The search and its distances are exact.** -/
theorem nearest_domain_exact :
    (∀ (a b : JsString) (limit : ℕ),
      (editDistance a b ≤ limit → levenshtein a b limit = editDistance a b) ∧
        (limit < editDistance a b → limit < levenshtein a b limit)) ∧
    ∀ domain : JsString,
      (∀ s, closestKnownDomain domain = some s ↔
        ∃ bound ∈ editBound domain.length, editDistance domain s ≤ bound ∧
          FirstLeast (editDistance domain) knownProviderDomains s) ∧
      (closestKnownDomain domain = none ↔
        ∀ bound ∈ editBound domain.length, ∀ k ∈ knownProviderDomains,
          bound < editDistance domain k) := by
  refine ⟨levenshtein_spec, ?_⟩
  intro domain
  rcases closestKnownDomain_cases domain with ⟨short, none_⟩ |
    ⟨bound, limit, ⟨none_, far⟩ | ⟨k, found, near, first⟩⟩
  · simp [short, none_]
  · simp only [none_, limit, Option.mem_some_iff, forall_eq', exists_eq_left', reduceCtorEq,
      false_iff, true_iff]
    refine ⟨?_, far⟩
    intro s both
    exact absurd (far s both.2.mem) (Nat.not_lt.2 both.1)
  · simp only [found, limit, Option.mem_some_iff, forall_eq', exists_eq_left', reduceCtorEq,
      false_iff, Option.some.injEq]
    refine ⟨fun s => ⟨?_, fun both => first.unique both.2⟩, ?_⟩
    · rintro rfl
      exact ⟨near, first⟩
    · intro far
      exact absurd (far k first.mem) (Nat.not_lt.2 near)

end Tozalist.Core
