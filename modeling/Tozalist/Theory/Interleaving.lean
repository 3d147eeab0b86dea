/-
# Tozalist.Theory.Interleaving -- requests whose statements alternate

A request is a tree: a value, an early reply, or a statement, which leaves a store for what it
finds and goes on according to what it found.  Any number of requests are served at once on one
store, a statement at a time and in any order.  A request may arrive whenever the replies given
so far admit it.

A `Policy` has an invariant of the store, an order in which the store evolves, and says what a
request may write and how it may reply, by what its statements have found and left so far.
`Request.Ensures` judges one request alone, by recursion over its tree, with a rule for every
construct; `Policy.kept` carries the judgements of the requests to every run of all of them.
-/
import Mathlib.Logic.Function.Basic
import Tozalist.Theory.Run

namespace Tozalist.Theory

set_option autoImplicit false

/-- A part of a request, with a value or an early reply.  Statements find a `μ` and leave a `σ`. -/
inductive Request (μ σ ρ α : Type) : Type
  | value (a : α)
  | reply (r : ρ)
  | statement (leaves : μ → σ) (next : μ → Request μ σ ρ α)

namespace Request

variable {μ σ ρ α β : Type}

/-- What follows the value of a part. -/
def andThen (f : α → Request μ σ ρ β) : Request μ σ ρ α → Request μ σ ρ β
  | value a => f a
  | reply r => reply r
  | statement leaves next => statement leaves fun m => andThen f (next m)

instance : Monad (Request μ σ ρ) where
  pure := value
  bind part f := part.andThen f

/-- One statement that answers with a value or ends the request. -/
def perform (effect : μ → Except ρ α × σ) : Request μ σ ρ α :=
  statement (fun m => (effect m).2) fun m =>
    match (effect m).1 with
    | .ok a => value a
    | .error r => reply r

/-! ## Conduct -/

/-- What statements may find and must leave, and how a request may reply, by its past: what each
statement found and left. -/
structure Conduct (μ σ ρ : Type) where
  finds : List (μ × σ) → μ → Prop
  leaves : List (μ × σ) → μ → σ → Prop
  replies : List (μ × σ) → ρ → Prop

variable {c : Conduct μ σ ρ} {gives : List (μ × σ) → α → Prop} {past : List (μ × σ)}

/-- The part keeps to the conduct, and its value is as `gives` says. -/
def Ensures (c : Conduct μ σ ρ) (gives : List (μ × σ) → α → Prop) :
    List (μ × σ) → Request μ σ ρ α → Prop
  | past, value a => gives past a
  | past, reply r => c.replies past r
  | past, statement leaves next =>
      ∀ m, c.finds past m →
        c.leaves past m (leaves m) ∧ Ensures c gives (past ++ [(m, leaves m)]) (next m)

@[simp] theorem ensures_pure {a : α} :
    Ensures c gives past (pure a : Request μ σ ρ α) ↔ gives past a := Iff.rfl

@[simp] theorem ensures_reply {r : ρ} :
    Ensures c gives past (reply r : Request μ σ ρ α) ↔ c.replies past r := Iff.rfl

theorem Ensures.mono {gives' : List (μ × σ) → α → Prop} {part : Request μ σ ρ α}
    (ensures : Ensures c gives past part) (imp : ∀ h a, gives h a → gives' h a) :
    Ensures c gives' past part := by
  induction part generalizing past with
  | value a => exact imp past a ensures
  | reply r => exact ensures
  | statement leaves next ih =>
      intro m finds
      exact ⟨(ensures m finds).1, ih m (ensures m finds).2⟩

theorem Ensures.bind {gives' : List (μ × σ) → β → Prop} {part : Request μ σ ρ α}
    {f : α → Request μ σ ρ β} (first : Ensures c gives past part)
    (rest : ∀ h a, gives h a → Ensures c gives' h (f a)) :
    Ensures c gives' past (part >>= f) := by
  induction part generalizing past with
  | value a => exact rest past a first
  | reply r => exact first
  | statement leaves next ih =>
      intro m finds
      exact ⟨(first m finds).1, ih m (first m finds).2⟩

/-- A statement is judged by what it leaves, and by what it makes of what it finds. -/
theorem Ensures.perform {effect : μ → Except ρ α × σ}
    (leaves : ∀ m, c.finds past m → c.leaves past m (effect m).2)
    (values : ∀ m, c.finds past m → ∀ a, (effect m).1 = .ok a →
      gives (past ++ [(m, (effect m).2)]) a)
    (ends : ∀ m, c.finds past m → ∀ r, (effect m).1 = .error r →
      c.replies (past ++ [(m, (effect m).2)]) r) :
    Ensures c gives past (perform effect) := by
  intro m finds
  refine ⟨leaves m finds, ?_⟩
  dsimp only
  split
  · rename_i a is
    exact values m finds a is
  · rename_i r is
    exact ends m finds r is

end Request

/-! ## Serving -/

/-- Where a request is: not there yet, before a statement, or answered.  Its past is remembered. -/
inductive Stage (κ μ σ ρ : Type) : Type
  | absent
  | under (q : κ) (past : List (μ × σ)) (leaves : μ → σ) (next : μ → Request μ σ ρ ρ)
  | replied (q : κ) (past : List (μ × σ)) (r : ρ)

/-- Where a request is that has come to `rest`. -/
def Request.stage {κ μ σ ρ : Type} (q : κ) (past : List (μ × σ)) :
    Request μ σ ρ ρ → Stage κ μ σ ρ
  | .value r => .replied q past r
  | .reply r => .replied q past r
  | .statement leaves next => .under q past leaves next

/-- The reply that is given there. -/
def Request.given {μ σ ρ : Type} : Request μ σ ρ ρ → List ρ
  | .value r => [r]
  | .reply r => [r]
  | .statement _ _ => []

/-- The store, the requests, and the replies given so far.  A statement finds the store and its
circumstances `ε`. -/
structure Pool (ι κ σ ε ρ : Type) where
  store : σ
  stage : ι → Stage κ (σ × ε) σ ρ
  given : List ρ

/-- A request arrives, or one runs its next statement. -/
inductive PoolAction (ι κ ε : Type) : Type
  | arrive (i : ι) (q : κ)
  | run (i : ι) (e : ε)

section Serving

variable {ι κ σ ε ρ : Type} [DecidableEq ι]

namespace Pool

/-- The request `q` has come to `rest`. -/
def settle (pool : Pool ι κ σ ε ρ) (i : ι) (q : κ) (past : List ((σ × ε) × σ))
    (rest : Request (σ × ε) σ ρ ρ) : Pool ι κ σ ε ρ :=
  { pool with
    stage := Function.update pool.stage i (rest.stage q past)
    given := pool.given ++ rest.given }

variable (admits : List ρ → κ → Prop) [∀ given q, Decidable (admits given q)]
  (handler : κ → Request (σ × ε) σ ρ ρ)

/-- What an action comes to; `none` where it is not possible. -/
def next (pool : Pool ι κ σ ε ρ) : PoolAction ι κ ε → Option (Pool ι κ σ ε ρ)
  | .arrive i q =>
      match pool.stage i with
      | .absent => if admits pool.given q then some (pool.settle i q [] (handler q)) else none
      | _ => none
  | .run i e =>
      match pool.stage i with
      | .under q past leaves next =>
          some ({ pool with store := leaves (pool.store, e) }.settle i q
            (past ++ [((pool.store, e), leaves (pool.store, e))]) (next (pool.store, e)))
      | _ => none

def Allows (pool : Pool ι κ σ ε ρ) (a : PoolAction ι κ ε) : Prop :=
  (pool.next admits handler a).isSome

instance (pool : Pool ι κ σ ε ρ) (a : PoolAction ι κ ε) :
    Decidable (pool.Allows admits handler a) := inferInstanceAs (Decidable (_ = true))

def after (pool : Pool ι κ σ ε ρ) (a : PoolAction ι κ ε) : Pool ι κ σ ε ρ :=
  (pool.next admits handler a).getD pool

/-- One statement or arrival. -/
abbrev Step : Pool ι κ σ ε ρ → PoolAction ι κ ε → Pool ι κ σ ε ρ → Prop :=
  StepOf (Allows admits handler) (after admits handler)

/-- Before all requests. -/
structure Fresh (pool : Pool ι κ σ ε ρ) : Prop where
  absent : ∀ i, pool.stage i = .absent
  given : pool.given = []

variable {admits handler}

/-- **The two kinds of steps.** -/
theorem step_cases {s t : Pool ι κ σ ε ρ} {a : PoolAction ι κ ε} (step : Step admits handler s a t) :
    (∃ i q, a = .arrive i q ∧ s.stage i = .absent ∧ admits s.given q ∧
      t = s.settle i q [] (handler q)) ∨
    ∃ i e q past leaves next, a = .run i e ∧ s.stage i = .under q past leaves next ∧
      t = { s with store := leaves (s.store, e) }.settle i q (past ++ [((s.store, e), leaves (s.store, e))])
        (next (s.store, e)) := by
  obtain ⟨allowed, rfl⟩ := step
  unfold Allows at allowed
  unfold after
  cases a with
  | arrive i q =>
      simp only [next] at allowed ⊢
      split at allowed
      · rename_i absent
        split at allowed
        · rename_i admitted
          exact .inl ⟨i, q, rfl, absent, admitted, by rw [if_pos admitted]; rfl⟩
        · cases allowed
      · cases allowed
  | run i e =>
      simp only [next] at allowed ⊢
      split at allowed
      · rename_i q past leaves rest here
        exact .inr ⟨i, e, q, past, leaves, rest, rfl, here, rfl⟩
      · cases allowed

end Pool

/-! ## Policies -/

/-- What requests are held to on a store.  Whatever happens, the store satisfies `holds` and
evolves along `evolves`. -/
structure Policy (κ σ ε ρ : Type) where
  holds : σ → Prop
  evolves : σ → σ → Prop
  writes : κ → List ((σ × ε) × σ) → σ × ε → σ → Prop
  replies : κ → List ((σ × ε) × σ) → ρ → Prop
  evolves_refl : ∀ s, evolves s s
  evolves_trans : ∀ s t u, evolves s t → evolves t u → evolves s u

namespace Policy

variable (policy : Policy κ σ ε ρ)

/-- What a statement found and left, as of when the store is `now`. -/
structure Turned (turn : (σ × ε) × σ) (now : σ) : Prop where
  found : policy.holds turn.1.1
  left : policy.holds turn.2
  ran : policy.evolves turn.1.1 turn.2
  since : policy.evolves turn.2 now

/-- The conduct of one request. -/
def conduct (q : κ) : Request.Conduct (σ × ε) σ ρ where
  finds past m := policy.holds m.1 ∧ ∀ turn ∈ past, policy.Turned turn m.1
  leaves past m t := policy.holds t ∧ policy.evolves m.1 t ∧ policy.writes q past m t
  replies := policy.replies q

/-- A request that keeps to its conduct. -/
def Obeys (q : κ) (request : Request (σ × ε) σ ρ ρ) : Prop :=
  request.Ensures (policy.conduct q) (policy.replies q) []

variable (admits : List ρ → κ → Prop)

/-- What is known of a request and its past. -/
structure Standing (pool : Pool ι κ σ ε ρ) (q : κ) (past : List ((σ × ε) × σ)) : Prop where
  /-- some replies before had admitted it -/
  admitted : ∃ early, early <+: pool.given ∧ admits early q
  past : ∀ turn ∈ past, policy.Turned turn pool.store

/-- A request is where the policy wants it. -/
def Right (pool : Pool ι κ σ ε ρ) : Stage κ (σ × ε) σ ρ → Prop
  | .absent => True
  | .under q past leaves next => policy.Standing admits pool q past ∧
      (Request.statement leaves next).Ensures (policy.conduct q) (policy.replies q) past
  | .replied q past r => policy.Standing admits pool q past ∧ policy.replies q past r

/-- Everything is as the policy wants it. -/
structure Sound (pool : Pool ι κ σ ε ρ) : Prop where
  holds : policy.holds pool.store
  stage : ∀ i, policy.Right admits pool (pool.stage i)
  given : ∀ r ∈ pool.given, ∃ i q past, pool.stage i = .replied q past r

variable {policy admits} {handler : κ → Request (σ × ε) σ ρ ρ}

theorem Turned.later {turn : (σ × ε) × σ} {now later : σ} (turned : policy.Turned turn now)
    (evolves : policy.evolves now later) : policy.Turned turn later :=
  { turned with since := policy.evolves_trans _ _ _ turned.since evolves }

omit [DecidableEq ι] in
theorem Standing.later {pool later : Pool ι κ σ ε ρ} {q : κ} {past : List ((σ × ε) × σ)}
    (standing : policy.Standing admits pool q past) (given : pool.given <+: later.given)
    (evolves : policy.evolves pool.store later.store) : policy.Standing admits later q past := by
  obtain ⟨early, before, admitted⟩ := standing.admitted
  refine ⟨⟨early, before.trans given, admitted⟩, ?_⟩
  intro turn member
  exact (standing.past turn member).later evolves

omit [DecidableEq ι] in
theorem Right.later {pool later : Pool ι κ σ ε ρ} {stage : Stage κ (σ × ε) σ ρ}
    (right : policy.Right admits pool stage) (given : pool.given <+: later.given)
    (evolves : policy.evolves pool.store later.store) : policy.Right admits later stage := by
  cases stage with
  | absent => trivial
  | under q past leaves next => exact ⟨right.1.later given evolves, right.2⟩
  | replied q past r => exact ⟨right.1.later given evolves, right.2⟩

/-- A request settles where it has come to, on a store that has evolved. -/
theorem Sound.settle {pool : Pool ι κ σ ε ρ} (sound : policy.Sound admits pool) {i : ι} {q : κ}
    {past : List ((σ × ε) × σ)} {rest : Request (σ × ε) σ ρ ρ} {store : σ}
    (open_ : ∀ q' past' r, pool.stage i ≠ .replied q' past' r)
    (held : policy.holds store) (evolves : policy.evolves pool.store store)
    (standing : policy.Standing admits { pool with store := store } q past)
    (ensures : rest.Ensures (policy.conduct q) (policy.replies q) past) :
    policy.Sound admits ({ pool with store := store }.settle i q past rest) := by
  have longer : pool.given <+: pool.given ++ rest.given := List.prefix_append _ _
  refine ⟨held, ?_, ?_⟩
  · intro j
    by_cases same : j = i
    · subst same
      simp only [Pool.settle, Function.update_self]
      have here : policy.Standing admits ({ pool with store := store }.settle j q past rest) q
          past := standing.later longer (policy.evolves_refl _)
      cases rest with
      | value r => exact ⟨here, ensures⟩
      | reply r => exact ⟨here, ensures⟩
      | statement leaves next => exact ⟨here, ensures⟩
    · simp only [Pool.settle, Function.update_of_ne same]
      exact (sound.stage j).later longer evolves
  · intro r member
    rcases List.mem_append.1 member with old | new
    · -- a reply that was given before was not this request's
      obtain ⟨j, q', past', there⟩ := sound.given r old
      have other : j ≠ i := by
        rintro rfl
        exact open_ q' past' r there
      exact ⟨j, q', past', (Function.update_of_ne other _ _).trans there⟩
    · refine ⟨i, q, past, (Function.update_self ..).trans ?_⟩
      cases rest with
      | value r' => rw [List.mem_singleton.1 new, Request.stage]
      | reply r' => rw [List.mem_singleton.1 new, Request.stage]
      | statement leaves next => cases new

/-- What a statement has written is what its request may write. -/
def Wrote (policy : Policy κ σ ε ρ) (s : Pool ι κ σ ε ρ) (a : PoolAction ι κ ε)
    (t : Pool ι κ σ ε ρ) : Prop :=
  match a with
  | .arrive _ _ => t.store = s.store
  | .run i e => ∃ q past leaves next, s.stage i = .under q past leaves next ∧
      policy.writes q past (s.store, e) t.store

/-- **The step lemma.** -/
theorem Sound.step [∀ given q, Decidable (admits given q)]
    (obeys : ∀ q, policy.Obeys q (handler q)) {s t : Pool ι κ σ ε ρ}
    {a : PoolAction ι κ ε} (sound : policy.Sound admits s)
    (step : Pool.Step admits handler s a t) :
    policy.Sound admits t ∧ policy.evolves s.store t.store ∧ policy.Wrote s a t := by
  rcases Pool.step_cases step with ⟨i, q, rfl, absent, admitted, rfl⟩ |
    ⟨i, e, q, past, leaves, next, rfl, here, rfl⟩
  · refine ⟨sound.settle ?_ sound.holds (policy.evolves_refl _)
      ⟨⟨_, List.prefix_refl _, admitted⟩, by simp⟩ (obeys q), policy.evolves_refl _, rfl⟩
    intro q' past' r there
    rw [absent] at there
    cases there
  · have right := sound.stage i
    rw [here] at right
    obtain ⟨standing, ensures⟩ := right
    obtain ⟨⟨held, evolved, wrote⟩, further⟩ := ensures (s.store, e) ⟨sound.holds, standing.past⟩
    refine ⟨sound.settle ?_ held evolved ⟨standing.admitted, ?_⟩ further, evolved,
      q, past, leaves, next, here, wrote⟩
    · intro q' past' r there
      rw [here] at there
      cases there
    · intro turn member
      rcases List.mem_append.1 member with old | new
      · exact (standing.past turn old).later evolved
      · obtain rfl := List.mem_singleton.1 new
        exact ⟨sound.holds, held, evolved, policy.evolves_refl _⟩

omit [DecidableEq ι] in
theorem Sound.fresh {pool : Pool ι κ σ ε ρ} (fresh : pool.Fresh) (holds : policy.holds pool.store) :
    policy.Sound admits pool := by
  refine ⟨holds, ?_, ?_⟩
  · intro i
    rw [fresh.absent]
    trivial
  · rw [fresh.given]
    simp

/-- **The run lemma.**  Where every request obeys, everything is as the policy wants it, and every
statement has written what its request may write. -/
theorem kept [∀ given q, Decidable (admits given q)] (obeys : ∀ q, policy.Obeys q (handler q))
    {s t : Pool ι κ σ ε ρ}
    {tr : List (Transition (Pool ι κ σ ε ρ) (PoolAction ι κ ε))} (fresh : s.Fresh)
    (holds : policy.holds s.store) (run : Run (Pool.Step admits handler) s tr t) :
    policy.Sound admits t ∧ ∀ e ∈ tr, policy.Sound admits e.source ∧
      policy.Wrote e.source e.action e.target := by
  have keep : ∀ (s : Pool ι κ σ ε ρ) (a : PoolAction ι κ ε) t, policy.Sound admits s →
      Pool.Step admits handler s a t → policy.Sound admits t := by
    intro s a t sound step
    exact (sound.step obeys step).1
  obtain ⟨last, throughout⟩ := run.throughout keep (.fresh fresh holds)
  refine ⟨last, ?_⟩
  intro e member
  have sound := (throughout e member).1
  exact ⟨sound, (sound.step obeys (run.steps e member)).2.2⟩

/-- **The store evolves** along the run. -/
theorem evolved [∀ given q, Decidable (admits given q)] (obeys : ∀ q, policy.Obeys q (handler q))
    {s t : Pool ι κ σ ε ρ}
    {tr : List (Transition (Pool ι κ σ ε ρ) (PoolAction ι κ ε))} (fresh : s.Fresh)
    (holds : policy.holds s.store) (run : Run (Pool.Step admits handler) s tr t) :
    policy.evolves s.store t.store ∧
      ∀ e ∈ tr, policy.evolves e.source.store t.store ∧
        policy.evolves e.target.store t.store := by
  induction run with
  | refl => exact ⟨policy.evolves_refl _, by simp⟩
  | next before last ih =>
      have now := ((kept obeys fresh holds before).1.step obeys last).2.1
      refine ⟨policy.evolves_trans _ _ _ ih.1 now, ?_⟩
      intro e member
      rcases List.mem_append.1 member with old | new
      · obtain ⟨source, target⟩ := ih.2 e old
        exact ⟨policy.evolves_trans _ _ _ source now, policy.evolves_trans _ _ _ target now⟩
      · obtain rfl := List.mem_singleton.1 new
        exact ⟨now, policy.evolves_refl _⟩

end Policy

/-- What a request has been through. -/
def Stage.past {κ μ σ ρ : Type} : Stage κ μ σ ρ → List (μ × σ)
  | .absent => []
  | .under _ past _ _ => past
  | .replied _ past _ => past

/-- What is asked for. -/
def Stage.asks {κ μ σ ρ : Type} : Stage κ μ σ ρ → Option κ
  | .absent => none
  | .under q _ _ _ => some q
  | .replied q _ _ => some q

@[simp] theorem Request.stage_past {κ μ σ ρ : Type} (q : κ) (past : List (μ × σ))
    (rest : Request μ σ ρ ρ) : (rest.stage q past).past = past := by
  cases rest <;> rfl

@[simp] theorem Request.stage_asks {κ μ σ ρ : Type} (q : κ) (past : List (μ × σ))
    (rest : Request μ σ ρ ρ) : (rest.stage q past).asks = some q := by
  cases rest <;> rfl

/-- A statement of the run was one of request `i`, which asks for what `q` says: it found and left
what `turn` says. -/
def Ran (i : ι) (q : Option κ) (turn : (σ × ε) × σ)
    (e : Transition (Pool ι κ σ ε ρ) (PoolAction ι κ ε)) : Prop :=
  e.action = .run i turn.1.2 ∧ (e.source.stage i).asks = q ∧ e.source.store = turn.1.1 ∧
    e.target.store = turn.2

section History

variable {admits : List ρ → κ → Prop} [∀ given q, Decidable (admits given q)]
  {handler : κ → Request (σ × ε) σ ρ ρ} {s t : Pool ι κ σ ε ρ}
  {tr : List (Transition (Pool ι κ σ ε ρ) (PoolAction ι κ ε))}

/-- **The past of a request** is in the run. -/
theorem Pool.ran (fresh : s.Fresh) (run : Run (Pool.Step admits handler) s tr t) (i : ι) :
    ∀ turn ∈ (t.stage i).past, ∃ e ∈ tr, Ran i (t.stage i).asks turn e := by
  induction run with
  | refl =>
      rw [fresh.absent]
      simp [Stage.past]
  | @next s t tr a before last ih =>
      have old : ∀ turn ∈ (s.stage i).past, ∃ e ∈ tr ++ [⟨s, a, t⟩],
          Ran i (s.stage i).asks turn e := by
        intro turn member
        obtain ⟨e, inside, is⟩ := ih turn member
        exact ⟨e, List.mem_append_left _ inside, is⟩
      rcases Pool.step_cases last with ⟨j, q, rfl, absent, -, rfl⟩ |
        ⟨j, e, q, past, leaves, rest, rfl, here, rfl⟩
      · by_cases same : i = j
        · subst same
          simp [Pool.settle]
        · simp only [Pool.settle, Function.update_of_ne same]
          exact old
      · by_cases same : i = j
        · subst same
          simp only [Pool.settle, Function.update_self, Request.stage_past, Request.stage_asks]
          rw [here] at old
          intro turn member
          rcases List.mem_append.1 member with earlier | new
          · exact old turn earlier
          · obtain rfl := List.mem_singleton.1 new
            refine ⟨_, List.mem_append_right _ (List.mem_singleton.2 rfl), rfl, ?_, rfl, rfl⟩
            rw [here]
            rfl
        · simp only [Pool.settle, Function.update_of_ne same]
          exact old

variable {policy : Policy κ σ ε ρ}

/-- **What replies hand on.**  `Vouched tr r` is a property of the reply `r` after the statements
`tr`.  If a reply has it whenever those that admitted its request have it, every reply has it. -/
theorem Policy.vouched (obeys : ∀ q, policy.Obeys q (handler q)) (fresh : s.Fresh)
    (holds : policy.holds s.store)
    {Vouched : List (Transition (Pool ι κ σ ε ρ) (PoolAction ι κ ε)) → ρ → Prop}
    (grows : ∀ tr more r, Vouched tr r → Vouched (tr ++ more) r)
    (hands : ∀ tr i q past r early, policy.replies q past r → admits early q →
      (∀ r' ∈ early, Vouched tr r') → (∀ turn ∈ past, ∃ e ∈ tr, Ran i (some q) turn e) →
      Vouched tr r)
    (run : Run (Pool.Step admits handler) s tr t) : ∀ r ∈ t.given, Vouched tr r := by
  induction run with
  | refl =>
      rw [fresh.given]
      simp
  | @next s t tr a before last ih =>
      have later := before.next last
      have sound := (policy.kept obeys fresh holds later).1
      have old : ∀ r ∈ s.given, Vouched (tr ++ [⟨s, a, t⟩]) r := by
        intro r member
        exact grows _ _ _ (ih r member)
      -- a request that settles replies after those that admitted it
      have settles : ∀ i q past (rest : Request (σ × ε) σ ρ ρ),
          t.stage i = rest.stage q past → (∃ early, early <+: s.given ∧ admits early q) →
          ∀ r ∈ rest.given, Vouched (tr ++ [⟨s, a, t⟩]) r := by
        intro i q past rest here admitted r member
        obtain ⟨early, earlier, admitted⟩ := admitted
        have right := sound.stage i
        have replied : rest.stage q past = .replied q past r := by
          cases rest with
          | value r' => rw [List.mem_singleton.1 member, Request.stage]
          | reply r' => rw [List.mem_singleton.1 member, Request.stage]
          | statement leaves next => cases member
        rw [here, replied] at right
        refine hands _ i q past r early right.2 admitted ?_ ?_
        · intro r' inside
          exact old r' (earlier.subset inside)
        · intro turn inside
          have ran := Pool.ran fresh later i
          rw [here, replied] at ran
          exact ran turn inside
      intro r member
      rcases Pool.step_cases last with ⟨i, q, rfl, absent, admitted, rfl⟩ |
        ⟨i, e, q, past, leaves, rest, rfl, here, rfl⟩
      · rcases List.mem_append.1 member with before_ | now
        · exact old r before_
        · exact settles i q [] (handler q) (Function.update_self ..)
            ⟨_, List.prefix_refl _, admitted⟩ r now
      · rcases List.mem_append.1 member with before_ | now
        · exact old r before_
        · have standing := (policy.kept obeys fresh holds before).1.stage i
          rw [here] at standing
          exact settles i q _ _ (Function.update_self ..) standing.1.admitted r now

end History

end Serving

end Tozalist.Theory
