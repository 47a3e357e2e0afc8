import SkillMind.Auth.LoginTables

/-!
# The login throttle over runs of calls

A run is a list of calls. What holds of it at any times follows from what one call stores,
`stopped` and `Counted.after_concat`. While the times do not decrease and JSON keeps them, the
tables stay sound, and the rest follows from the two outcomes of a call, `Clocked.not_counted` and
`Clocked.counted`.
-/

namespace SkillMind.Auth

/-! ## Runs -/

structure Call (κ : Type) where
  now : Nat
  keys : List κ

/-- The clock does not go back, and JSON keeps its times. -/
def Clocked {κ : Type} (calls : List (Call κ)) : Prop :=
  (calls.Pairwise fun first second => first.now ≤ second.now) ∧ ∀ call ∈ calls, Exact call.now

section Runs

variable {κ : Type} [DecidableEq κ] (limit : κ → LoginLimit)

def step (expiring : Bool) (store : Store κ) (call : Call κ) : Answer × Store κ :=
  rateScript expiring (fun key => (limit key).value) store call.now call.keys

def after (expiring : Bool) (calls : List (Call κ)) : Store κ :=
  calls.foldl (fun store call => (step limit expiring store call).2) fun _ => none

def answer (expiring : Bool) (before : List (Call κ)) (call : Call κ) : Answer :=
  (step limit expiring (after limit expiring before) call).1

/-- An accepted or a blocking call: no key of it was blocked. -/
def Counted (before : List (Call κ)) (call : Call κ) : Prop :=
  Passes limit (after limit true before) call.now call.keys

/-- The call starts a window of the key. -/
def Resets (store : Store κ) (call : Call κ) (key : κ) : Prop :=
  key ∈ call.keys ∧ Passes limit store call.now call.keys ∧
    ∀ s, shown store call.now key = some s →
      quiet ≤ call.now - s.last ∨ window ≤ call.now - s.start

/-- How many of the later calls name the key and are admitted. -/
def admissions (key : κ) (before : List (Call κ)) : List (Call κ) → Nat
  | [] => 0
  | call :: later =>
    (if key ∈ call.keys ∧ answer limit true before call = .admitted then 1 else 0) +
      admissions key (before ++ [call]) later

def strikesAt (before : List (Call κ)) (now : Nat) (key : κ) : Nat :=
  ((shown (after limit true before) now key).map LoginState.strikes).getD 0

variable {limit} {before calls : List (Call κ)} {call : Call κ} {key : κ} {now : Nat}

@[simp] theorem after_concat (expiring : Bool) (before : List (Call κ)) (call : Call κ) :
    after limit expiring (before ++ [call]) =
      (step limit expiring (after limit expiring before) call).2 := by
  simp [after]

/-! ## Calls at any time -/

theorem stopped (blocked : ¬ Counted limit before call) :
    answer limit true before call ≠ .admitted ∧
      after limit true (before ++ [call]) = after limit true before := by
  rw [after_concat]
  exact rateScript_of_not_passes blocked

theorem Counted.after_concat (counted : Counted limit before call) (key : κ) :
    after limit true (before ++ [call]) key =
      if key ∈ call.keys then
        some (written true (fun key => (limit key).value) (after limit true before) call.now key)
      else after limit true before key := by
  rw [Auth.after_concat, step, counted.rateScript_eq]

theorem after_concat_of_not_mem (other : key ∉ call.keys) :
    after limit true (before ++ [call]) key = after limit true before key := by
  by_cases counted : Counted limit before call
  · rw [counted.after_concat, if_neg other]
  · rw [(stopped counted).2]

theorem table_concat_of_not_mem (other : key ∉ call.keys) :
    table (after limit true (before ++ [call])) key = table (after limit true before) key := by
  unfold table
  rw [after_concat_of_not_mem other]

theorem after_append_of_not_mem {later : List (Call κ)} (others : ∀ c ∈ later, key ∉ c.keys) :
    after limit true (before ++ later) key = after limit true before key := by
  induction later using List.reverseRecOn with
  | nil => rw [List.append_nil]
  | append_singleton first call ih =>
    rw [← List.append_assoc, after_concat_of_not_mem (others call (by simp))]
    exact ih fun c mem => others c (List.mem_append_left _ mem)

theorem admissions_concat (key : κ) (before later : List (Call κ)) (call : Call κ) :
    admissions limit key before (later ++ [call]) = admissions limit key before later +
      if key ∈ call.keys ∧ answer limit true (before ++ later) call = .admitted then 1 else 0 := by
  induction later generalizing before with
  | nil => simp [admissions]
  | cons first rest ih =>
    simp only [List.cons_append, admissions, ih, List.append_assoc, List.cons_append,
      List.nil_append]
    omega

theorem Counted.table_concat (counted : Counted limit before call) (named : key ∈ call.keys) :
    table (after limit true (before ++ [call])) key =
      some (count call.now (limit key).value
        (reading (after limit true before) call.now key)).1.encoded := by
  rw [table, counted.after_concat, if_pos named]
  rfl

theorem counted_of_admitted (admitted : answer limit true before call = .admitted) :
    Counted limit before call := by
  by_contra blocked
  exact (stopped blocked).1 admitted

theorem Counted.below (counted : Counted limit before call)
    (admitted : answer limit true before call = .admitted) (named : key ∈ call.keys) :
    (opened call.now (reading (after limit true before) call.now key)).count <
      (limit key).value := by
  rw [answer, step, counted.rateScript_eq] at admitted
  split_ifs at admitted with none
  have bound := le_greatest (List.mem_map_of_mem (f := fun key => (count call.now
    (limit key).value (reading (after limit true before) call.now key)).2) named)
  rcases count_block (limit key) call.now (reading (after limit true before) call.now key) with
    ⟨low, -⟩ | ⟨-, long, -⟩
  · exact low
  · rw [none] at bound
    unfold window at long
    omega

theorem Counted.counts_on (counted : Counted limit before call) (named : key ∈ call.keys)
    (same : ¬ Resets limit (after limit true before) call key) :
    ∃ s, table (after limit true before) key = some s ∧
      opened call.now (reading (after limit true before) call.now key) = s := by
  have counts : ∃ s, shown (after limit true before) call.now key = some s ∧
      ¬ (quiet ≤ call.now - s.last ∨ window ≤ call.now - s.start) := by
    by_contra none
    push Not at none
    refine same ⟨named, counted, fun s visible => ?_⟩
    by_contra neither
    push Not at neither
    exact absurd (none s visible) (by omega)
  obtain ⟨s, visible, running⟩ := counts
  obtain ⟨stored, ends, found⟩ := find_of_shown visible
  push Not at running
  refine ⟨s, stored, ?_⟩
  rw [reading, found, current, if_neg (by omega), opened, if_neg (by omega)]

theorem Counted.count_concat (counted : Counted limit before call) (named : key ∈ call.keys)
    {n : Nat} (few : n ≤ (limit key).value)
    (up : n ≤ (opened call.now (reading (after limit true before) call.now key)).count + 1) :
    ∃ s, table (after limit true (before ++ [call])) key = some s ∧ n ≤ s.count := by
  have bounded := (limit key).bounded
  refine ⟨_, counted.table_concat named, ?_⟩
  rw [LoginState.encoded, count_count]
  exact le_jsonNumber up (by omega)

/-- What is admitted since the window of the key started is counted in its table. -/
theorem admissions_le {first : Call κ} {rest : List (Call κ)}
    (one : ∀ p c q, rest = p ++ c :: q →
      ¬ Resets limit (after limit true (before ++ first :: p)) c key) :
    admissions limit key before (first :: rest) ≤ (limit key).value ∧
      (admissions limit key before (first :: rest) = 0 ∨
        ∃ s, table (after limit true (before ++ first :: rest)) key = some s ∧
          admissions limit key before (first :: rest) ≤ s.count) := by
  induction rest using List.reverseRecOn with
  | nil =>
    have positive := (limit key).positive
    simp only [admissions, Nat.add_zero]
    split_ifs with admitted
    · exact ⟨positive, Or.inr ((counted_of_admitted admitted.2).count_concat admitted.1 positive
        (Nat.le_add_left 1 _))⟩
    · exact ⟨Nat.zero_le _, Or.inl rfl⟩
  | append_singleton rest call ih =>
    rw [show before ++ first :: (rest ++ [call]) = (before ++ first :: rest) ++ [call] by simp]
    obtain ⟨within, few⟩ := ih fun p c q split => one p c (q ++ [call]) (by simp [split])
    have last := one rest call [] rfl
    rw [show first :: (rest ++ [call]) = (first :: rest) ++ [call] from rfl, admissions_concat]
    by_cases named : key ∈ call.keys
    · by_cases counted : Counted limit (before ++ first :: rest) call
      · obtain ⟨s, stored, running⟩ := counted.counts_on named last
        have earlier : admissions limit key before (first :: rest) ≤ s.count := by
          rcases few with zero | ⟨s', stored', bound⟩
          · exact zero ▸ Nat.zero_le _
          · exact Option.some.inj (stored'.symm.trans stored) ▸ bound
        split_ifs with admitted
        · have below := counted.below admitted.2 named
          have room : admissions limit key before (first :: rest) + 1 ≤ (limit key).value := by
            rw [running] at below
            omega
          exact ⟨room, Or.inr (counted.count_concat named room (by rw [running]; omega))⟩
        · exact ⟨within, Or.inr (counted.count_concat named within (by rw [running]; omega))⟩
      · rw [if_neg fun admitted => counted (counted_of_admitted admitted.2), (stopped counted).2]
        exact ⟨within, few⟩
    · rw [if_neg fun admitted => named admitted.1, table_concat_of_not_mem named]
      exact ⟨within, few⟩

/-! ## Calls whose times JSON keeps -/

omit [DecidableEq κ] in
theorem Clocked.of_append {later : List (Call κ)} (clocked : Clocked (before ++ later)) :
    Clocked before :=
  ⟨(List.pairwise_append.mp clocked.1).1,
    fun call mem => clocked.2 call (List.mem_append_left later mem)⟩

omit [DecidableEq κ] in
theorem Clocked.past (clocked : Clocked (before ++ [call])) : ∀ c ∈ before, c.now ≤ call.now :=
  fun c mem => (List.pairwise_append.mp clocked.1).2.2 c mem call (List.mem_singleton_self call)

omit [DecidableEq κ] in
theorem Clocked.exact (clocked : Clocked (before ++ [call])) : Exact call.now :=
  clocked.2 call (List.mem_append_right before (List.mem_singleton_self call))

theorem after_kept (limit : κ → LoginLimit) (expiring : Bool) (clocked : Clocked calls)
    (past : ∀ c ∈ calls, c.now ≤ now) :
    Kept limit now (after limit expiring calls) ∧
      after limit expiring calls = after limit true calls := by
  induction calls using List.reverseRecOn generalizing now with
  | nil => exact ⟨fun _ _ stored => absurd stored (by simp [after]), rfl⟩
  | append_singleton before call ih =>
    obtain ⟨kept, same⟩ := ih clocked.of_append clocked.past
    have le := past call (List.mem_append_right before (List.mem_singleton_self call))
    rw [after_concat, after_concat, same]
    rw [same] at kept
    unfold step
    rw [kept.rateScript_eq clocked.exact expiring, kept.rateScript_eq clocked.exact true]
    refine ⟨?_, rfl⟩
    by_cases blocked : 0 < blockedFor (after limit true before) call.now call.keys
    · rw [if_pos blocked]
      exact kept.mono le
    · have free := (kept.free_iff call.keys).mpr (Nat.eq_zero_of_not_pos blocked)
      rw [if_neg blocked]
      exact (kept.countedStore free).mono le

theorem Clocked.kept (clocked : Clocked (before ++ [call])) (limit : κ → LoginLimit) :
    Kept limit call.now (after limit true before) :=
  (after_kept limit true clocked.of_append clocked.past).1

theorem Clocked.kept_concat (clocked : Clocked (before ++ [call])) (limit : κ → LoginLimit) :
    Kept limit call.now (after limit true (before ++ [call])) := by
  refine (after_kept limit true clocked fun c mem => ?_).1
  rcases List.mem_append.mp mem with old | new
  · exact clocked.past c old
  · exact List.mem_singleton.mp new ▸ le_rfl

theorem Clocked.step_eq (clocked : Clocked (before ++ [call])) :
    step limit true (after limit true before) call =
      if 0 < blockedFor (after limit true before) call.now call.keys then
        (.refused (inSeconds (blockedFor (after limit true before) call.now call.keys)),
          after limit true before)
      else
        (if startedFor limit (after limit true before) call.now call.keys = 0 then .admitted
          else .refused
            (inSeconds (startedFor limit (after limit true before) call.now call.keys)),
          countedStore limit (after limit true before) call.now call.keys) :=
  (clocked.kept limit).rateScript_eq clocked.exact true call.keys

theorem Clocked.not_counted (clocked : Clocked (before ++ [call]))
    (blocked : ¬ Counted limit before call) :
    answer limit true before call =
        .refused (inSeconds (blockedFor (after limit true before) call.now call.keys)) ∧
      after limit true (before ++ [call]) = after limit true before := by
  unfold Counted at blocked
  rw [(clocked.kept limit).passes_iff clocked.exact, (clocked.kept limit).free_iff] at blocked
  rw [after_concat, answer, clocked.step_eq, if_pos (Nat.pos_of_ne_zero blocked)]
  exact ⟨rfl, rfl⟩

theorem Clocked.counted (clocked : Clocked (before ++ [call]))
    (counted : Counted limit before call) :
    answer limit true before call =
        (if startedFor limit (after limit true before) call.now call.keys = 0 then .admitted
          else .refused
            (inSeconds (startedFor limit (after limit true before) call.now call.keys))) ∧
      after limit true (before ++ [call]) =
        countedStore limit (after limit true before) call.now call.keys := by
  unfold Counted at counted
  rw [(clocked.kept limit).passes_iff clocked.exact, (clocked.kept limit).free_iff] at counted
  rw [after_concat, answer, clocked.step_eq, if_neg (by omega)]
  exact ⟨rfl, rfl⟩

theorem Clocked.countable (clocked : Clocked (before ++ [call]))
    (counted : Counted limit before call) (named : key ∈ call.keys) :
    Countable (limit key) call.now (counting (after limit true before) call.now key) :=
  (clocked.kept limit).countable
    (((clocked.kept limit).passes_iff clocked.exact call.keys).mp counted) named

/-! ## Strikes -/

theorem counted_le_last {p q : List (Call κ)} {d : Call κ} (clocked : Clocked (p ++ d :: q))
    (named : key ∈ d.keys) (counted : Counted limit p d) :
    ∃ s, table (after limit true (p ++ d :: q)) key = some s ∧ d.now ≤ s.last := by
  induction q using List.reverseRecOn with
  | nil =>
    rw [(clocked.counted counted).2]
    exact ⟨_, table_countedStore named, by rw [countedTable, count_last]⟩
  | append_singleton q call ih =>
    rw [show p ++ d :: (q ++ [call]) = (p ++ d :: q) ++ [call] by simp] at clocked ⊢
    obtain ⟨s, stored, late⟩ := ih clocked.of_append
    by_cases named' : key ∈ call.keys
    · by_cases counted' : Counted limit (p ++ d :: q) call
      · rw [(clocked.counted counted').2]
        refine ⟨_, table_countedStore named', ?_⟩
        rw [countedTable, count_last]
        exact clocked.past d (by simp)
      · rw [(clocked.not_counted counted').2]
        exact ⟨s, stored, late⟩
    · exact ⟨s, (table_concat_of_not_mem named').trans stored, late⟩

theorem strikes_expire {time later : Nat} (clocked : Clocked before)
    (past : ∀ c ∈ before, c.now ≤ time) (falls : strikesAt limit before later key <
      strikesAt limit before time key) {p q : List (Call κ)} {d : Call κ}
    (split : before = p ++ d :: q) (named : key ∈ d.keys) (counted : Counted limit p d) :
    d.now + quiet ≤ later := by
  have kept := (after_kept limit true clocked past).1
  subst split
  obtain ⟨s, stored, late⟩ := counted_le_last clocked named counted
  by_cases there : later ≤ s.last + lifetime
  · have visible : shown (after limit true (p ++ d :: q)) later key = some s :=
      kept.shown_eq_some.mpr ⟨stored, there⟩
    unfold strikesAt at falls
    rw [visible] at falls
    cases before_then : shown (after limit true (p ++ d :: q)) time key with
    | none =>
      rw [before_then] at falls
      exact absurd falls (Nat.not_lt_zero _)
    | some s' =>
      have same := (kept.shown_eq_some.mp before_then).1.symm.trans stored
      rw [before_then, same] at falls
      exact absurd falls (Nat.lt_irrefl _)
  · unfold lifetime at there
    omega

theorem strikes_forgotten (clocked : Clocked (before ++ [call]))
    (falls : strikesAt limit (before ++ [call]) call.now key < strikesAt limit before call.now key)
    {p q : List (Call κ)} {d : Call κ} (split : before = p ++ d :: q) (named : key ∈ d.keys)
    (counted : Counted limit p d) : d.now + quiet ≤ call.now := by
  have kept := clocked.kept limit
  subst split
  obtain ⟨s, stored, late⟩ := counted_le_last clocked.of_append named counted
  by_contra recent
  have visible : shown (after limit true (p ++ d :: q)) call.now key = some s := by
    refine kept.shown_eq_some.mpr ⟨stored, ?_⟩
    unfold lifetime
    omega
  have unchanged : after limit true (p ++ d :: q ++ [call]) key =
      after limit true (p ++ d :: q) key → False := by
    intro same
    refine absurd falls (Nat.not_lt_of_le (Nat.le_of_eq ?_))
    simp only [strikesAt, shown, find, same]
  by_cases named' : key ∈ call.keys
  · by_cases counted' : Counted limit (p ++ d :: q) call
    · have sound := (kept.of_table stored).2
      have written : table (after limit true (p ++ d :: q ++ [call])) key =
          some (countedTable limit (after limit true (p ++ d :: q)) call.now key) := by
        rw [(clocked.counted counted').2]
        exact table_countedStore named'
      have counts : counting (after limit true (p ++ d :: q)) call.now key = s := by
        have positive : 0 < quiet := by decide
        rw [kept.counting_eq, stored]
        dsimp only
        rw [if_neg (by omega)]
      have visible' : shown (after limit true (p ++ d :: q ++ [call])) call.now key =
          some (countedTable limit (after limit true (p ++ d :: q)) call.now key) :=
        (clocked.kept_concat limit).shown_eq_some.mpr ⟨written, by
          rw [countedTable, count_last]
          exact Nat.le_add_right _ _⟩
      have most := sound.strikes
      unfold strikesAt at falls
      rw [visible, visible', Option.map_some, Option.map_some, Option.getD_some,
        Option.getD_some, countedTable, counts] at falls
      rcases count_block (limit key) call.now s with
        ⟨-, -, -, same⟩ | ⟨-, -, -, -, up⟩
      · omega
      · omega
    · exact unchanged (congrFun (clocked.not_counted counted').2 key)
  · exact unchanged (after_concat_of_not_mem named')

/-! ## The wait -/

theorem le_inSeconds (retry : Nat) : retry ≤ 1000 * inSeconds retry := by
  unfold inSeconds
  omega

omit [DecidableEq κ] in
theorem admitted_of_below {store : Store κ} {keys : List κ}
    (below : ∀ key ∈ keys, (opened now (counting store now key)).count < (limit key).value) :
    startedFor limit store now keys = 0 := by
  rcases greatest_cases (keys.map (startedBlock limit store now)) with zero | mem
  · exact zero
  · obtain ⟨key, named, same⟩ := List.mem_map.mp mem
    rw [startedFor, ← same]
    rcases count_block (limit key) now (counting store now key) with
      ⟨-, none, -⟩ | ⟨full, -⟩
    · exact none
    · exact absurd (below key named) (Nat.not_lt_of_le full)

omit [DecidableEq κ] in
theorem fresh_below : (opened now (fresh now)).count < (limit key).value := by
  have positive := (limit key).positive
  unfold opened fresh
  split_ifs <;> exact positive

theorem Clocked.refused_bounds (clocked : Clocked (before ++ [call])) {seconds : Nat}
    (refused : answer limit true before call = .refused seconds) :
    1 ≤ seconds ∧ seconds ≤ 300 := by
  by_cases counted : Counted limit before call
  · rw [(clocked.counted counted).1] at refused
    split_ifs at refused with none
    obtain rfl := Answer.refused.inj refused
    have bounds := (startedFor_bounds limit (after limit true before) call.now call.keys).1
    unfold inSeconds
    unfold window maximum at bounds
    omega
  · have blocked := counted
    unfold Counted at blocked
    rw [(clocked.kept limit).passes_iff clocked.exact, (clocked.kept limit).free_iff] at blocked
    rw [(clocked.not_counted counted).1] at refused
    obtain rfl := Answer.refused.inj refused
    have bound := ((clocked.kept limit).blockedFor_bounds call.keys).1
    unfold inSeconds
    unfold maximum at bound
    omega

/-- The keys of a call whose table stands in the way of a later one: one that is not blocked, and
used its limit up within a window that is still open. -/
def UsedUp (limit : κ → LoginLimit) (before : List (Call κ)) (call : Call κ) (now : Nat) : Prop :=
  ∃ key ∈ call.keys, ∃ s, table (after limit true before) key = some s ∧ s.blocked ≤ call.now ∧
    s.count = (limit key).value ∧ now < s.start + window

theorem waited {between : List (Call κ)} {again : Call κ} {seconds : Nat}
    (clocked : Clocked (before ++ call :: between ++ [again]))
    (refused : answer limit true before call = .refused seconds)
    (others : ∀ c ∈ between, ∀ key ∈ c.keys, key ∉ call.keys) (same : again.keys = call.keys)
    (wait : call.now + 1000 * seconds ≤ again.now) :
    answer limit true (before ++ call :: between) again = .admitted ∨
      (¬ Counted limit before call ∧ UsedUp limit before call again.now) := by
  have split : before ++ call :: between = (before ++ [call]) ++ between := by simp
  have first : Clocked (before ++ [call]) := by
    rw [split] at clocked
    exact clocked.of_append.of_append
  have tables : ∀ key ∈ call.keys, table (after limit true (before ++ call :: between)) key =
      table (after limit true (before ++ [call])) key := by
    intro key named
    rw [split]
    unfold table
    rw [after_append_of_not_mem fun c mem named' => others c mem key named' named]
  have kept := clocked.kept limit
  by_cases counted : Counted limit before call
  · left
    rw [(first.counted counted).1] at refused
    split_ifs at refused with none
    obtain rfl := Answer.refused.inj refused
    have long := le_inSeconds (startedFor limit (after limit true before) call.now call.keys)
    obtain ⟨bounds, each⟩ := startedFor_bounds limit (after limit true before) call.now call.keys
    have minute := bounds.resolve_left none
    have written : ∀ key ∈ call.keys,
        table (after limit true (before ++ call :: between)) key =
          some (countedTable limit (after limit true before) call.now key) := by
      intro key named
      rw [tables key named, (first.counted counted).2]
      exact table_countedStore named
    have past : ∀ key ∈ call.keys,
        (countedTable limit (after limit true before) call.now key).blocked ≤ again.now ∧
          (countedTable limit (after limit true before) call.now key).start + window ≤
            again.now := by
      intro key named
      have sound := (first.countable counted named).count_sound
      have started := sound.started
      rw [count_last] at started
      have block := each key named
      unfold countedTable
      unfold startedBlock at block
      rcases count_block (limit key) call.now
        (counting (after limit true before) call.now key) with
        ⟨-, -, free, -⟩ | ⟨-, -, -, ends, -⟩
      · omega
      · omega
    have free : Counted limit (before ++ call :: between) again := by
      refine ((clocked.kept limit).passes_iff clocked.exact again.keys).mpr ?_
      intro key named s stored
      rw [same] at named
      rw [written key named] at stored
      exact Option.some.inj stored ▸ (past key named).1
    rw [(clocked.counted free).1, if_pos]
    apply admitted_of_below
    intro key named
    rw [same] at named
    have positive := (limit key).positive
    rw [kept.counting_eq, written key named]
    dsimp only
    split_ifs
    · exact fresh_below
    · rw [opened, if_pos (by have := (past key named).2; omega)]
      exact positive
  · rw [(first.not_counted counted).1] at refused
    obtain rfl := Answer.refused.inj refused
    have long := le_inSeconds (blockedFor (after limit true before) call.now call.keys)
    have ends := ((first.kept limit).blockedFor_bounds call.keys).2
    have unwritten : ∀ key ∈ call.keys,
        table (after limit true (before ++ call :: between)) key =
          table (after limit true before) key := by
      intro key named
      rw [tables key named, (first.not_counted counted).2]
    have free : Counted limit (before ++ call :: between) again := by
      refine ((clocked.kept limit).passes_iff clocked.exact again.keys).mpr ?_
      intro key named s stored
      rw [same] at named
      rw [unwritten key named] at stored
      have block := ends key named s stored
      omega
    by_cases used : UsedUp limit before call again.now
    · exact Or.inr ⟨counted, used⟩
    · left
      rw [(clocked.counted free).1, if_pos]
      apply admitted_of_below
      intro key named
      rw [same] at named
      have positive := (limit key).positive
      rw [kept.counting_eq, unwritten key named]
      cases stored : table (after limit true before) key with
      | none => exact fresh_below
      | some s =>
        have sound := ((first.kept limit).of_table stored).2
        dsimp only
        split_ifs
        · exact fresh_below
        · unfold opened
          split_ifs with past
          · exact positive
          · rcases sound.open_or_blocked with ⟨zero, within⟩ | ⟨late, -⟩
            · refine Nat.lt_of_le_of_ne within fun full => used ?_
              exact ⟨key, named, s, stored, by omega, full, by omega⟩
            · have block := ends key named s stored
              have started := sound.started
              omega

theorem stored_valid {entry : Entry} (clocked : Clocked before)
    (known : find true (after limit true before) now key = some entry) : entry.valid = true := by
  have stored : after limit true before key = some entry := (Option.filter_eq_some_iff.mp known).1
  cases before using List.reverseRecOn with
  | nil => exact absurd stored (by simp [after])
  | append_singleton earlier call =>
    obtain ⟨s, rfl, sound⟩ := clocked.kept_concat limit key entry stored
    simp [Entry.valid, sound.valid clocked.exact]

/-- **The login throttle.**  Along every run: a call that names a blocked key is not admitted and
changes nothing; between two starts of a window of a key no more calls that name it are admitted
than its limit; and a call writes all of its keys or none.  Where the clock does not go back and
JSON keeps the times, moreover: such a call is refused; a block ends at most five minutes after
the call that started it; strikes are only taken away after a quiet time without an accepted or a
blocking call on the key; what is stored passes the checks; the answers are those of a store that
never drops a key; and who waits as long as a refusal says is admitted, unless the refusal was for
a block and another key of the call has used its limit up in a window that is still open. -/
theorem login_throttled (limit : κ → LoginLimit) :
    (∀ before call key s, key ∈ call.keys →
      shown (after limit true before) call.now key = some s → call.now < s.blocked →
        answer limit true before call ≠ .admitted ∧
          after limit true (before ++ [call]) = after limit true before ∧
          (Clocked (before ++ [call]) →
            ∃ seconds, answer limit true before call = .refused seconds)) ∧
    (∀ before first rest key,
      (∀ p c q, rest = p ++ c :: q →
        ¬ Resets limit (after limit true (before ++ first :: p)) c key) →
        admissions limit key before (first :: rest) ≤ (limit key).value) ∧
    (∀ before call,
      (∀ key ∉ call.keys,
        after limit true (before ++ [call]) key = after limit true before key) ∧
      (after limit true (before ++ [call]) = after limit true before ∨
        ∀ key ∈ call.keys, ∃ s,
          after limit true (before ++ [call]) key =
              some ⟨.state s, some (call.now + lifetime)⟩ ∧
            (Clocked (before ++ [call]) → s.last = call.now ∧ 0 < s.count))) ∧
    (∀ before call key s, Clocked (before ++ [call]) → Counted limit before call →
      key ∈ call.keys → table (after limit true (before ++ [call])) key = some s →
        s.blocked ≤ call.now + 300000) ∧
    (∀ before time later key, Clocked before → (∀ c ∈ before, c.now ≤ time) → time ≤ later →
      strikesAt limit before later key < strikesAt limit before time key →
        ∀ p d q, before = p ++ d :: q → key ∈ d.keys → Counted limit p d →
          d.now + 900000 ≤ later) ∧
    (∀ before call key, Clocked (before ++ [call]) →
      strikesAt limit (before ++ [call]) call.now key < strikesAt limit before call.now key →
        ∀ p d q, before = p ++ d :: q → key ∈ d.keys → Counted limit p d →
          d.now + 900000 ≤ call.now) ∧
    (∀ before now key entry, Clocked before →
      find true (after limit true before) now key = some entry → entry.valid = true) ∧
    (∀ before call, Clocked (before ++ [call]) →
      answer limit true before call = answer limit false before call) ∧
    (∀ before call between again seconds, Clocked (before ++ call :: between ++ [again]) →
      answer limit true before call = .refused seconds →
      (∀ c ∈ between, ∀ key ∈ c.keys, key ∉ call.keys) → again.keys = call.keys →
      call.now + 1000 * seconds ≤ again.now →
        (1 ≤ seconds ∧ seconds ≤ 300) ∧
        (answer limit true (before ++ call :: between) again = .admitted ∨
          (¬ Counted limit before call ∧ UsedUp limit before call again.now))) := by
  refine ⟨?_, ?_, ?_, ?_, ?_, ?_, ?_, ?_, ?_⟩
  · intro before call key s named visible blocked
    have stays : ¬ Counted limit before call := fun counted =>
      absurd (counted.free named visible) (Nat.not_le_of_lt blocked)
    exact ⟨(stopped stays).1, (stopped stays).2, fun clocked => ⟨_, (clocked.not_counted stays).1⟩⟩
  · intro before first rest key one
    exact (admissions_le one).1
  · intro before call
    by_cases counted : Counted limit before call
    · refine ⟨fun key other => after_concat_of_not_mem other, Or.inr fun key named => ?_⟩
      refine ⟨(count call.now (limit key).value
        (reading (after limit true before) call.now key)).1.encoded,
        by rw [counted.after_concat, if_pos named]; rfl, fun clocked => ?_⟩
      have stored := counted.table_concat named
      rw [(clocked.counted counted).2, table_countedStore named] at stored
      rw [← Option.some.inj stored, countedTable]
      exact ⟨count_last, by rw [count_count]; exact Nat.succ_pos _⟩
    · exact ⟨fun key other => after_concat_of_not_mem other, Or.inl (stopped counted).2⟩
  · intro before call key s clocked counted named stored
    rw [(clocked.counted counted).2, table_countedStore named] at stored
    have sound := (clocked.countable counted named).count_sound
    have bound := sound.blocked_le
    rw [count_last] at bound
    exact Option.some.inj stored ▸ bound
  · intro before time later key clocked past _ falls p d q split named counted
    exact strikes_expire clocked past falls split named counted
  · intro before call key clocked falls p d q split named counted
    exact strikes_forgotten clocked falls split named counted
  · intro before now key entry clocked known
    exact stored_valid clocked known
  · intro before call clocked
    have same := (after_kept limit false clocked.of_append clocked.past).2
    unfold answer
    rw [same]
    exact congrArg Prod.fst (rateScript_expiring (clocked.kept limit) clocked.exact call.keys)
  · intro before call between again seconds clocked refused others same wait
    have first : Clocked (before ++ [call]) := by
      rw [show before ++ call :: between ++ [again] = (before ++ [call]) ++ (between ++ [again])
        by simp] at clocked
      exact clocked.of_append
    exact ⟨first.refused_bounds refused, waited clocked refused others same wait⟩

end Runs

def samplePolicy : LoginProtectionPolicy where
  pairAttempts := ⟨1, by decide, by decide⟩
  accountAttempts := ⟨3, by decide, by decide⟩
  sourceRequests := ⟨1, by decide, by decide⟩

def sampleCall (now : Nat) (source : String) : Call LoginKey :=
  ⟨now, checkAccountKeys "account" source⟩

/-- Two requests of one source, which block it, and then three requests of other sources, which
use up the next window of the account. -/
def sampleRequests : List (Call LoginKey) :=
  [sampleCall 1000000 "a", sampleCall 1050000 "b", sampleCall 1050001 "b",
    sampleCall 1060000 "c", sampleCall 1060000 "d", sampleCall 1060000 "e"]

/-- A request that waits as long as its refusal says is refused again for the other key; and once
the clock has fifteen digits, so is a request with a single key. -/
theorem login_wait_refused :
    (¬ ∀ (before : List (Call LoginKey)) (call again : Call LoginKey) (seconds later : Nat),
      (before ++ [call, again]).Pairwise (fun first second => first.now ≤ second.now) →
      answer samplePolicy.limit true before call = .refused seconds →
      again.keys = call.keys → call.now + 1000 * seconds ≤ again.now →
        answer samplePolicy.limit true (before ++ [call]) again ≠ .refused later) ∧
    ¬ ∀ (before : List (Call LoginKey)) (call again : Call LoginKey) (key : LoginKey)
      (seconds later : Nat),
      (before ++ [call, again]).Pairwise (fun first second => first.now ≤ second.now) →
      call.keys = [key] → answer samplePolicy.limit true before call = .refused seconds →
      again.keys = call.keys → call.now + 1000 * seconds ≤ again.now →
        answer samplePolicy.limit true (before ++ [call]) again ≠ .refused later := by
  constructor
  · intro honest
    exact honest sampleRequests (sampleCall 1110000 "b") (sampleCall 1111000 "b") 1 60
      (by decide) (by decide) rfl (by decide) (by decide)
  · intro honest
    exact honest [⟨100000000000006, beginKeys "a"⟩] ⟨100000000000006, beginKeys "a"⟩
      ⟨100000000060006, beginKeys "a"⟩ (.source "a") 60 1
      (by decide) rfl (by decide) rfl (by decide) (by decide)

end SkillMind.Auth
