/-
# Tozalist.Theory.Regex -- backtracking patterns, and replacing what they match

A pattern is run at a place of a text and comes to the places where a match of it can end, in the
order in which a backtracking matcher tries them: the first is the match.  A repetition that reads
nothing in a round is given up, and an edge looks at the letters on both sides of the place.

* `Matches` -- the words of a pattern, without regard to what is around them;
* `run_sound`, `run_complete` -- what is read is a word, and every word is read (of a pattern
  without edges);
* `rewrite` -- a replacement of all matches, from the left;
* `Occurs` -- a word somewhere in a text, and what a letter that no word has does to that.
-/
import Mathlib.Tactic.Common

namespace Tozalist.Theory

set_option autoImplicit false

universe u

/-- Patterns over the letters `α`. -/
inductive Regex (α : Type u) where
  | empty
  | one (p : α → Bool)
  | seq (r s : Regex α)
  | alt (r s : Regex α)
  /-- `r*` -/
  | many (r : Regex α)
  /-- `r*?` -/
  | few (r : Regex α)
  /-- `\b`, for these word letters -/
  | edge (p : α → Bool)

namespace Regex

variable {α : Type u}

/-! ## Running a pattern -/

/-- A place in a text; what is before it is in reverse. -/
@[ext] structure Place (α : Type u) where
  before : List α
  after : List α

/-- The place after a word that was read. -/
def Place.past (c : Place α) (m rest : List α) : Place α := ⟨m.reverse ++ c.before, rest⟩

/-- From `c` to `d` the word `m` is read. -/
def Reads (c : Place α) (m : List α) (d : Place α) : Prop :=
  c.after = m ++ d.after ∧ d = c.past m d.after

theorem reads_nil (c : Place α) : Reads c [] c := ⟨rfl, rfl⟩

theorem Reads.trans {c d e : Place α} {m n : List α} (first : Reads c m d) (second : Reads d n e) :
    Reads c (m ++ n) e := by
  refine ⟨?_, ?_⟩
  · rw [first.1, second.1, List.append_assoc]
  · rw [second.2, first.2, Place.past, Place.past, Place.past, List.reverse_append,
      List.append_assoc]

/-- The rounds of a greedy repetition. -/
def runMany (round : Place α → List (Place α)) : ℕ → Place α → List (Place α)
  | 0, c => [c]
  | n + 1, c =>
      ((round c).filter fun d => d.after.length < c.after.length).flatMap (runMany round n) ++ [c]

/-- The rounds of a lazy repetition. -/
def runFew (round : Place α → List (Place α)) : ℕ → Place α → List (Place α)
  | 0, c => [c]
  | n + 1, c =>
      c :: ((round c).filter fun d => d.after.length < c.after.length).flatMap (runFew round n)

/-- Where a match can end, best first. -/
def run : Regex α → Place α → List (Place α)
  | .empty, c => [c]
  | .one p, c =>
      match c.after with
      | [] => []
      | x :: rest => if p x then [⟨x :: c.before, rest⟩] else []
  | .seq r s, c => (run r c).flatMap (run s)
  | .alt r s, c => run r c ++ run s c
  | .many r, c => runMany (run r) c.after.length c
  | .few r, c => runFew (run r) c.after.length c
  | .edge p, c => if c.before.head?.any p = c.after.head?.any p then [] else [c]

/-! ## Words -/

/-- The words of a pattern; an edge reads nothing. -/
def Matches : Regex α → List α → Prop
  | .empty, m => m = []
  | .one p, m => ∃ x, p x = true ∧ m = [x]
  | .seq r s, m => ∃ a b, m = a ++ b ∧ Matches r a ∧ Matches s b
  | .alt r s, m => Matches r m ∨ Matches s m
  | .many r, m => ∃ parts : List (List α), m = parts.flatten ∧ ∀ part ∈ parts, Matches r part
  | .few r, m => ∃ parts : List (List α), m = parts.flatten ∧ ∀ part ∈ parts, Matches r part
  | .edge _, m => m = []

/-- The pattern has no edge. -/
def Edgeless : Regex α → Prop
  | .empty => True
  | .one _ => True
  | .seq r s => r.Edgeless ∧ s.Edgeless
  | .alt r s => r.Edgeless ∧ s.Edgeless
  | .many r => r.Edgeless
  | .few r => r.Edgeless
  | .edge _ => False

/-- What rounds come to is read in parts. -/
theorem runMany_sound {round : Place α → List (Place α)} {P : List α → Prop}
    (sound : ∀ c, ∀ d ∈ round c, ∃ m, Reads c m d ∧ P m) (n : ℕ) :
    ∀ c, ∀ d ∈ runMany round n c, ∃ parts : List (List α), Reads c parts.flatten d ∧
      ∀ part ∈ parts, P part := by
  induction n with
  | zero =>
      intro c d member
      obtain rfl := List.mem_singleton.1 member
      exact ⟨[], reads_nil d, nofun⟩
  | succ n ih =>
      intro c d member
      rcases List.mem_append.1 member with more | last
      · obtain ⟨e, first, rest⟩ := List.mem_flatMap.1 more
        obtain ⟨m, reads, word⟩ := sound c e (List.mem_filter.1 first).1
        obtain ⟨parts, reads', words⟩ := ih e d rest
        refine ⟨m :: parts, reads.trans reads', ?_⟩
        intro part inside
        rcases List.mem_cons.1 inside with rfl | old
        · exact word
        · exact words part old
      · obtain rfl := List.mem_singleton.1 last
        exact ⟨[], reads_nil d, nofun⟩

/-- A lazy repetition comes to the same places in another order. -/
theorem mem_runFew {round : Place α → List (Place α)} (n : ℕ) :
    ∀ c d, d ∈ runFew round n c ↔ d ∈ runMany round n c := by
  induction n with
  | zero => exact fun _ _ => Iff.rfl
  | succ n ih =>
      intro c d
      rw [runFew, runMany, List.mem_cons, List.mem_append, List.mem_singleton, or_comm,
        List.mem_flatMap, List.mem_flatMap]
      refine or_congr_left (exists_congr fun e => and_congr_right fun _ => ih e d)

/-- **What is read is a word.** -/
theorem run_sound (r : Regex α) :
    ∀ c, ∀ d ∈ run r c, ∃ m, Reads c m d ∧ Matches r m := by
  induction r with
  | empty =>
      intro c d member
      obtain rfl := List.mem_singleton.1 member
      exact ⟨[], reads_nil d, rfl⟩
  | one p =>
      rintro ⟨before, after⟩ d member
      cases after with
      | nil => cases member
      | cons x rest =>
          change d ∈ (if p x then [(⟨x :: before, rest⟩ : Place α)] else []) at member
          split at member
          · rename_i holds
            obtain rfl := List.mem_singleton.1 member
            exact ⟨[x], ⟨rfl, rfl⟩, x, holds, rfl⟩
          · cases member
  | seq r s ihr ihs =>
      intro c d member
      obtain ⟨e, first, second⟩ := List.mem_flatMap.1 member
      obtain ⟨a, reads, word⟩ := ihr c e first
      obtain ⟨b, reads', word'⟩ := ihs e d second
      exact ⟨a ++ b, reads.trans reads', a, b, rfl, word, word'⟩
  | alt r s ihr ihs =>
      intro c d member
      rcases List.mem_append.1 member with left | right
      · obtain ⟨m, reads, word⟩ := ihr c d left
        exact ⟨m, reads, .inl word⟩
      · obtain ⟨m, reads, word⟩ := ihs c d right
        exact ⟨m, reads, .inr word⟩
  | many r ih =>
      intro c d member
      obtain ⟨parts, reads, words⟩ := runMany_sound ih c.after.length c d member
      exact ⟨parts.flatten, reads, parts, rfl, words⟩
  | few r ih =>
      intro c d member
      obtain ⟨parts, reads, words⟩ :=
        runMany_sound ih c.after.length c d ((mem_runFew _ c d).1 member)
      exact ⟨parts.flatten, reads, parts, rfl, words⟩
  | edge p =>
      intro c d member
      change d ∈ (if c.before.head?.any p = c.after.head?.any p then [] else [c]) at member
      split at member
      · cases member
      · obtain rfl := List.mem_singleton.1 member
        exact ⟨[], reads_nil d, rfl⟩

/-- Rounds come to the end of every sequence of words, when there are as many as letters. -/
theorem runMany_complete {round : Place α → List (Place α)} {P : List α → Prop}
    (complete : ∀ (c : Place α) m rest, P m → c.after = m ++ rest → c.past m rest ∈ round c)
    (parts : List (List α)) : ∀ (n : ℕ) (c : Place α) (rest : List α),
      (∀ part ∈ parts, P part) → c.after = parts.flatten ++ rest → c.after.length ≤ n →
        c.past parts.flatten rest ∈ runMany round n c := by
  have stay : ∀ (n : ℕ) (c : Place α), c ∈ runMany round n c := by
    intro n c
    cases n with
    | zero => exact List.mem_singleton_self c
    | succ n => exact List.mem_append_right _ (List.mem_singleton_self c)
  induction parts with
  | nil =>
      intro n c rest _ is _
      have same : c.past [] rest = c := by
        cases c
        cases is
        rfl
      rw [List.flatten_nil, same]
      exact stay n c
  | cons m parts ih =>
      intro n c rest words is enough
      obtain ⟨word, others⟩ := List.forall_mem_cons.1 words
      rw [List.flatten_cons, List.append_assoc] at is
      have onward : c.past (m ++ parts.flatten) rest =
          (c.past m (parts.flatten ++ rest)).past parts.flatten rest := by
        simp only [Place.past, List.reverse_append, List.append_assoc]
      cases m with
      | nil => exact ih n c rest others is enough
      | cons x m =>
          cases n with
          | zero =>
              rw [is] at enough
              exact absurd enough (by simp)
          | succ n =>
              have first := complete c (x :: m) _ word is
              refine List.mem_append_left _ (List.mem_flatMap.2
                ⟨_, List.mem_filter.2 ⟨first, ?_⟩, ?_⟩)
              · rw [is]
                simp only [Place.past, List.length_append, List.length_cons, decide_eq_true_eq]
                omega
              · rw [List.flatten_cons, onward]
                apply ih n _ rest others rfl
                rw [is] at enough
                simp only [Place.past, List.length_append, List.length_cons] at enough ⊢
                omega

/-- **Every word is read.** -/
theorem run_complete (r : Regex α) (edgeless : r.Edgeless) :
    ∀ (c : Place α) (m rest : List α), Matches r m → c.after = m ++ rest →
      c.past m rest ∈ run r c := by
  induction r with
  | empty =>
      rintro ⟨before, after⟩ m rest rfl is
      cases is
      exact List.mem_singleton_self _
  | one p =>
      rintro ⟨before, after⟩ m rest ⟨x, holds, rfl⟩ is
      cases is
      show _ ∈ (if p x then [(⟨x :: before, rest⟩ : Place α)] else [])
      rw [if_pos holds]
      exact List.mem_singleton_self _
  | seq r s ihr ihs =>
      rintro c m rest ⟨a, b, rfl, word, word'⟩ is
      rw [List.append_assoc] at is
      have second := ihs edgeless.2 (c.past a (b ++ rest)) b rest word' rfl
      refine List.mem_flatMap.2 ⟨_, ihr edgeless.1 c a _ word is, ?_⟩
      rwa [Place.past, Place.past, ← List.append_assoc, ← List.reverse_append] at second
  | alt r s ihr ihs =>
      rintro c m rest (word | word) is
      · exact List.mem_append_left _ (ihr edgeless.1 c m rest word is)
      · exact List.mem_append_right _ (ihs edgeless.2 c m rest word is)
  | many r ih =>
      rintro c m rest ⟨parts, rfl, words⟩ is
      exact runMany_complete (ih edgeless) parts _ c rest words is (Nat.le_refl _)
  | few r ih =>
      rintro c m rest ⟨parts, rfl, words⟩ is
      exact (mem_runFew _ _ _).2
        (runMany_complete (ih edgeless) parts _ c rest words is (Nat.le_refl _))
  | edge p => exact edgeless.elim

/-! ## Derived patterns -/

/-- One after the other. -/
def inOrder : List (Regex α) → Regex α
  | [] => .empty
  | r :: rest => .seq r (inOrder rest)

/-- `r+` -/
def plus (r : Regex α) : Regex α := .seq r (.many r)

/-- `r?` -/
def optional (r : Regex α) : Regex α := .alt r .empty

/-- `r{n}` -/
def exactly : ℕ → Regex α → Regex α
  | 0, _ => .empty
  | n + 1, r => .seq r (exactly n r)

/-- `r{n,}` -/
def atLeast (n : ℕ) (r : Regex α) : Regex α := .seq (exactly n r) (.many r)

/-- The letters of a list in a row, each up to `same`. -/
def word (same : α → α → Bool) (letters : List α) : Regex α :=
  inOrder (letters.map fun x => .one (same x))

/-- Any of some patterns, the first that fits. -/
def anyOf : List (Regex α) → Regex α
  | [] => .one fun _ => false
  | [r] => r
  | r :: rest => .alt r (anyOf rest)

/-- The words of a repetition of one letter. -/
theorem matches_many_one {p : α → Bool} {m : List α} :
    Matches (.many (.one p)) m ↔ ∀ x ∈ m, p x = true := by
  constructor
  · rintro ⟨parts, rfl, words⟩ x member
    obtain ⟨part, inside, there⟩ := List.mem_flatten.1 member
    obtain ⟨y, holds, rfl⟩ := words part inside
    obtain rfl := List.mem_singleton.1 there
    exact holds
  · intro all
    refine ⟨m.map fun x => [x], by rw [← List.flatMap_def, List.flatMap_singleton'], ?_⟩
    intro part member
    obtain ⟨x, inside, rfl⟩ := List.mem_map.1 member
    exact ⟨x, all x inside, rfl⟩

/-! ## Replacing -/

/-- The first match at a place. -/
def first (r : Regex α) (c : Place α) : Option (Place α) := (run r c).head?

/-- What lies between two places. -/
def between (c d : Place α) : List α := c.after.take (c.after.length - d.after.length)

theorem between_of_reads {c d : Place α} {m : List α} (reads : Reads c m d) : between c d = m := by
  rw [between, reads.1, List.length_append, Nat.add_sub_cancel_right, List.take_left']
  rfl

/-- Rewrite a text from the left: `find` finds what is to be replaced at a place, with what, and
where to go on. -/
def rewrite (find : Place α → Option (List α × Place α)) : ℕ → Place α → List α
  | 0, c => c.after
  | n + 1, c =>
      match find c with
      | some (new, d) => new ++ rewrite find n d
      | none =>
          match c.after with
          | [] => []
          | x :: rest => x :: rewrite find n ⟨x :: c.before, rest⟩

/-- `text.replace(r, f)` with a global pattern that matches no empty text. -/
def replaceAll (find : Place α → Option (List α × Place α)) (text : List α) : List α :=
  rewrite find text.length ⟨[], text⟩

/-- Replace what the pattern matches. -/
def replaced (r : Regex α) (f : List α → List α) (c : Place α) : Option (List α × Place α) :=
  (first r c).map fun d => (f (between c d), d)

/-- Replace what the second pattern matches after the first, with backtracking into the first. -/
def replacedValue (kept value : Regex α) (new : List α) (c : Place α) :
    Option (List α × Place α) :=
  ((run kept c).flatMap fun d => (run value d).map fun e => (d, e)).head?.map fun (d, e) =>
    (between c d ++ new, e)

/-- All matches of the pattern in a text, as `replace` meets them. -/
def matchesFrom (r : Regex α) : ℕ → Place α → List (Place α × Place α)
  | 0, _ => []
  | n + 1, c =>
      match first r c with
      | some d => (c, d) :: matchesFrom r n d
      | none =>
          match c.after with
          | [] => []
          | x :: rest => matchesFrom r n ⟨x :: c.before, rest⟩

/-- A match that is met reads a word, in the same text. -/
theorem matchesFrom_sound (r : Regex α) (n : ℕ) :
    ∀ c, ∀ found ∈ matchesFrom r n c,
      found.1.before.reverse ++ found.1.after = c.before.reverse ++ c.after ∧
        ∃ m, Reads found.1 m found.2 ∧ Matches r m := by
  induction n with
  | zero => exact nofun
  | succ n ih =>
      intro c found member
      rw [matchesFrom] at member
      cases here : first r c with
      | some d =>
          rw [here] at member
          obtain ⟨m, reads, word⟩ := run_sound r c d (List.mem_of_mem_head? here)
          rcases List.mem_cons.1 member with rfl | later
          · exact ⟨rfl, m, reads, word⟩
          · obtain ⟨same, rest⟩ := ih d found later
            refine ⟨?_, rest⟩
            rw [same, reads.1, reads.2]
            simp [Place.past]
      | none =>
          rw [here] at member
          cases after : c.after with
          | nil =>
              rw [after] at member
              cases member
          | cons x rest =>
              rw [after] at member
              obtain ⟨same, others⟩ := ih ⟨x :: c.before, rest⟩ found member
              refine ⟨?_, others⟩
              rw [same]
              simp

/-- All matches in a text. -/
def allMatches (r : Regex α) (text : List α) : List (Place α × Place α) :=
  matchesFrom r text.length ⟨[], text⟩

/-! ## Occurrences -/

/-- A word of the language is somewhere in the text. -/
def Occurs (L : List α → Prop) (text : List α) : Prop :=
  ∃ a m b, text = a ++ m ++ b ∧ L m

variable {L : List α → Prop}

theorem Occurs.append_left {text : List α} (occurs : Occurs L text) (more : List α) :
    Occurs L (more ++ text) := by
  obtain ⟨a, m, b, rfl, word⟩ := occurs
  exact ⟨more ++ a, m, b, by simp only [List.append_assoc], word⟩

theorem Occurs.append_right {text : List α} (occurs : Occurs L text) (more : List α) :
    Occurs L (text ++ more) := by
  obtain ⟨a, m, b, rfl, word⟩ := occurs
  exact ⟨a, m, b ++ more, by simp only [List.append_assoc], word⟩

/-- **A letter that no word has** parts the occurrences. -/
theorem occurs_append_cons {x : α} (free : ∀ m, L m → x ∉ m) {a b : List α} :
    Occurs L (a ++ x :: b) ↔ Occurs L a ∨ Occurs L b := by
  constructor
  · rintro ⟨l, m, r, is, word⟩
    rw [List.append_assoc] at is
    rcases List.append_eq_append_iff.1 is with ⟨l', rfl, rest⟩ | ⟨a', rfl, rest⟩
    · cases l' with
      | nil =>
          cases m with
          | nil => exact .inl ⟨a, [], [], by simp, word⟩
          | cons y m =>
              cases rest
              exact absurd List.mem_cons_self (free _ word)
      | cons y l' =>
          cases rest
          exact .inr ⟨l', m, r, by simp, word⟩
    · rcases List.append_eq_append_iff.1 rest with ⟨m', is, rest'⟩ | ⟨m', rfl, rest'⟩
      · exact .inl ⟨l, m, m', by rw [is, List.append_assoc], word⟩
      · cases m' with
        | nil =>
            rw [List.append_nil] at word
            exact .inl ⟨l, a', [], by simp, word⟩
        | cons y m' =>
            cases rest'
            exact absurd (List.mem_append_right _ List.mem_cons_self) (free _ word)
  · rintro (left | right)
    · exact left.append_right _
    · exact (right.append_left [x]).append_left a

end Regex

end Tozalist.Theory
