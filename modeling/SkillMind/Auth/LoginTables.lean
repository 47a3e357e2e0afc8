import Mathlib.Data.List.Induction
import Mathlib.Tactic.SplitIfs
import SkillMind.Auth.LoginProtection

/-!
# The tables of the login throttle

Every table the script writes is sound: its block ends at most five minutes after the call that
wrote it and never within the window of that call, and a count beyond the limit goes with a block.
A call is then refused with nothing changed or counted for all of its keys, and a key that expired
looks to it like a key that was quiet.
-/

namespace SkillMind.Auth

/-! ## One key -/

theorem jsonNumber_of_lt {n : Nat} (small : n < 10 ^ 14) : jsonNumber n = n := by
  have digits : Nat.log 10 n - 13 = 0 := by
    have below : Nat.log 10 n < 14 := Nat.log_lt_of_lt_pow' (by decide) small
    omega
  simp [jsonNumber, digits, Nat.mod_one]

theorem le_jsonNumber {m n : Nat} (le : m ≤ n) (small : m ≤ 10 ^ 13) : m ≤ jsonNumber n := by
  by_cases short : n < 10 ^ 14
  · exact le.trans (Nat.le_of_eq (jsonNumber_of_lt short).symm)
  · have digits : 14 ≤ Nat.log 10 n :=
      Nat.le_log_of_pow_le (by decide) (Nat.le_of_not_lt short)
    have power : 10 ^ 13 * 10 ^ (Nat.log 10 n - 13) ≤ n := by
      rw [← Nat.pow_add, show 13 + (Nat.log 10 n - 13) = Nat.log 10 n by omega]
      exact Nat.pow_log_le_self 10 (by omega)
    have positive : 0 < 10 ^ (Nat.log 10 n - 13) := Nat.pow_pos (by decide)
    have quotient : 10 ^ 13 ≤ n / 10 ^ (Nat.log 10 n - 13) :=
      (Nat.le_div_iff_mul_le positive).mpr power
    have bound : 10 ^ 13 ≤ n / 10 ^ (Nat.log 10 n - 13) * 10 ^ (Nat.log 10 n - 13) :=
      quotient.trans (Nat.le_mul_of_pos_right _ positive)
    refine small.trans ?_
    unfold jsonNumber
    dsimp only
    split_ifs
    · exact bound
    · exact bound.trans (Nat.mul_le_mul_right _ (Nat.le_succ _))

theorem LoginState.encoded_eq {s : LoginState} (version : s.version < 10 ^ 14)
    (start : s.start < 10 ^ 14) (count : s.count < 10 ^ 14) (strikes : s.strikes < 10 ^ 14)
    (blocked : s.blocked < 10 ^ 14) (last : s.last < 10 ^ 14) : s.encoded = s := by
  simp only [LoginState.encoded, jsonNumber_of_lt version, jsonNumber_of_lt start,
    jsonNumber_of_lt count, jsonNumber_of_lt strikes, jsonNumber_of_lt blocked,
    jsonNumber_of_lt last]

/-- The time is early enough for JSON to keep every number of a table. -/
def Exact (now : Nat) : Prop := now + maximum < 10 ^ 14

/-- A table the script wrote at or before `now`. -/
structure Sound (limit : LoginLimit) (now : Nat) (s : LoginState) : Prop where
  version : s.version = 1
  started : s.start ≤ s.last
  past : s.last ≤ now
  strikes : s.strikes ≤ 4
  counted : s.count ≤ limit.value + 1
  open_or_blocked : (s.blocked = 0 ∧ s.count ≤ limit.value) ∨
    (s.last + window ≤ s.blocked ∧ s.blocked ≤ s.last + maximum)

section Key

variable {limit : LoginLimit} {now later : Nat} {s : LoginState}

theorem Sound.mono (sound : Sound limit now s) (le : now ≤ later) : Sound limit later s :=
  { sound with past := sound.past.trans le }

theorem Sound.blocked_le (sound : Sound limit now s) : s.blocked ≤ s.last + maximum := by
  rcases sound.open_or_blocked with ⟨zero, -⟩ | ⟨-, bound⟩
  · omega
  · exact bound

theorem Sound.valid (sound : Sound limit now s) (exact : Exact now) : s.valid = true := by
  have bounded := limit.bounded
  have blocked := sound.blocked_le
  obtain ⟨version, started, past, strikes, counted, -⟩ := sound
  unfold Exact maximum at exact
  simp only [LoginState.valid, integer, Bool.and_eq_true, decide_eq_true_eq]
  unfold maximum at blocked ⊢
  omega

theorem Sound.opened_count (sound : Sound limit now s) (free : s.blocked ≤ now) :
    (opened now s).count ≤ limit.value := by
  have started := sound.started
  unfold opened
  split_ifs with past
  · exact Nat.zero_le _
  · rcases sound.open_or_blocked with ⟨-, within⟩ | ⟨block, -⟩
    · exact within
    · omega

theorem delayOf_bounds (strikes : Nat) : window ≤ delayOf strikes ∧ delayOf strikes ≤ maximum := by
  have positive : 1 ≤ 2 ^ (strikes - 1) := Nat.one_le_two_pow
  unfold delayOf window maximum base
  omega

@[simp] theorem count_last : (count now limit.value s).1.last = now := by
  simp only [count]
  split_ifs <;> rfl

@[simp] theorem count_start : (count now limit.value s).1.start = (opened now s).start := by
  simp only [count]
  split_ifs <;> rfl

theorem opened_start_le (past : s.start ≤ now) : (opened now s).start ≤ now := by
  unfold opened
  split_ifs
  · exact le_rfl
  · exact past

@[simp] theorem opened_version : (opened now s).version = s.version := by
  unfold opened
  split_ifs <;> rfl

@[simp] theorem opened_strikes : (opened now s).strikes = s.strikes := by
  unfold opened
  split_ifs <;> rfl

@[simp] theorem count_version : (count now limit.value s).1.version = s.version := by
  simp only [count]
  split_ifs <;> simp

@[simp] theorem count_count :
    (count now limit.value s).1.count = (opened now s).count + 1 := by
  simp only [count]
  split_ifs <;> rfl

theorem count_block (limit : LoginLimit) (now : Nat) (s : LoginState) :
    ((opened now s).count < limit.value ∧ (count now limit.value s).2 = 0 ∧
        (count now limit.value s).1.blocked = 0 ∧
        (count now limit.value s).1.strikes = s.strikes) ∨
      (limit.value ≤ (opened now s).count ∧
        window ≤ (count now limit.value s).2 ∧ (count now limit.value s).2 ≤ maximum ∧
        (count now limit.value s).1.blocked = now + (count now limit.value s).2 ∧
        (count now limit.value s).1.strikes = min (s.strikes + 1) 4) := by
  have bounds := delayOf_bounds (min (s.strikes + 1) 4)
  simp only [count]
  split_ifs with beyond
  · simp only [opened_strikes]
    exact Or.inr ⟨by omega, bounds.1, bounds.2, trivial, trivial⟩
  · simp only [opened_strikes]
    exact Or.inl ⟨by omega, trivial, trivial, trivial⟩

/-- A table that is counted from: a fresh one, or one that is not blocked. -/
def Countable (limit : LoginLimit) (now : Nat) (s : LoginState) : Prop :=
  s = fresh now ∨ (Sound limit now s ∧ s.blocked ≤ now)

theorem Countable.opened_count (countable : Countable limit now s) :
    (opened now s).count ≤ limit.value := by
  rcases countable with rfl | ⟨sound, free⟩
  · unfold opened fresh
    split_ifs <;> exact Nat.zero_le _
  · exact sound.opened_count free

theorem Countable.count_sound (countable : Countable limit now s) :
    Sound limit now (count now limit.value s).1 := by
  have within := countable.opened_count
  have old : s.version = 1 ∧ s.strikes ≤ 4 ∧ s.start ≤ now := by
    rcases countable with rfl | ⟨sound, -⟩
    · exact ⟨rfl, Nat.zero_le _, le_rfl⟩
    · exact ⟨sound.version, sound.strikes, sound.started.trans sound.past⟩
  constructor
  · rw [count_version]
    exact old.1
  · rw [count_start, count_last]
    exact opened_start_le old.2.2
  · rw [count_last]
  · rcases count_block limit now s with ⟨-, -, -, same⟩ | ⟨-, -, -, -, up⟩
    · exact same ▸ old.2.1
    · exact up ▸ min_le_right _ _
  · rw [count_count]
    exact Nat.succ_le_succ within
  · rw [count_last, count_count]
    rcases count_block limit now s with
      ⟨low, -, free, -⟩ | ⟨-, long, short, block, -⟩
    · exact Or.inl ⟨free, low⟩
    · exact Or.inr ⟨by omega, by omega⟩

theorem Sound.encoded (sound : Sound limit now s) (exact : Exact now) : s.encoded = s := by
  have bounded := limit.bounded
  have blocked := sound.blocked_le
  obtain ⟨version, started, past, strikes, counted, -⟩ := sound
  unfold Exact maximum at exact
  unfold maximum at blocked
  apply LoginState.encoded_eq <;> omega

end Key

/-! ## The store -/

section Stores

variable {κ : Type} {limit : κ → LoginLimit} {store : Store κ} {now later : Nat}

/-- Every key holds a sound table that the store keeps for its lifetime. -/
def Kept (limit : κ → LoginLimit) (now : Nat) (store : Store κ) : Prop :=
  ∀ key entry, store key = some entry →
    ∃ s, entry = ⟨.state s, some (s.last + lifetime)⟩ ∧ Sound (limit key) now s

theorem Kept.mono (kept : Kept limit now store) (le : now ≤ later) : Kept limit later store := by
  intro key entry stored
  obtain ⟨s, shape, sound⟩ := kept key entry stored
  exact ⟨s, shape, sound.mono le⟩

def table (store : Store κ) (key : κ) : Option LoginState :=
  (store key).bind fun entry =>
    match entry.value with
    | .state s => some s
    | .foreign => none

theorem Kept.of_table (kept : Kept limit now store) {key : κ} {s : LoginState}
    (stored : table store key = some s) :
    store key = some ⟨.state s, some (s.last + lifetime)⟩ ∧ Sound (limit key) now s := by
  obtain ⟨entry, known, shown⟩ := Option.bind_eq_some_iff.mp stored
  obtain ⟨s', rfl, sound⟩ := kept key entry known
  obtain rfl := Option.some.inj shown
  exact ⟨known, sound⟩

theorem find_false (key : κ) : find false store now key = store key := by
  cases stored : store key <;> simp [find, stored]

theorem fault_eq_none {limit : LoginLimit} {entry : Option Entry}
    (valid : entry.all Entry.valid = true) : fault limit.value entry = none := by
  have low := limit.positive
  have high := limit.bounded
  unfold fault
  rw [if_neg (by omega), if_pos valid]

theorem Kept.find_expiring (kept : Kept limit now store) (exact : Exact now) (key : κ) :
    fault (limit key).value (find true store now key) = none ∧
      fault (limit key).value (find false store now key) = none ∧
      current now (find true store now key) = current now (find false store now key) ∧
      remaining now (find true store now key) = remaining now (find false store now key) := by
  cases stored : store key with
  | none => simp [find, stored, fault_eq_none]
  | some entry =>
    obtain ⟨s, rfl, sound⟩ := kept key entry stored
    have valid := sound.valid exact
    have passes : fault (limit key).value (some ⟨.state s, some (s.last + lifetime)⟩) = none := by
      apply fault_eq_none
      simp [Entry.valid, valid]
    have always : find false store now key = some ⟨.state s, some (s.last + lifetime)⟩ := by
      simp [find, stored]
    by_cases there : now ≤ s.last + lifetime
    · have shown : find true store now key = some ⟨.state s, some (s.last + lifetime)⟩ := by
        simp [find, stored, there]
      rw [shown, always]
      exact ⟨passes, passes, rfl, rfl⟩
    · have gone : find true store now key = none := by simp [find, stored, there]
      have long : quiet ≤ now - s.last := by
        unfold lifetime at there
        omega
      have free : s.blocked ≤ now := by
        have bound := sound.blocked_le
        unfold lifetime at there
        omega
      rw [gone, always]
      refine ⟨fault_eq_none rfl, passes, ?_, ?_⟩
      · simp [current, long]
      · simp [remaining, Nat.sub_eq_zero_of_le free]

theorem le_greatest {delays : List Nat} {delay : Nat} (mem : delay ∈ delays) :
    delay ≤ greatest delays := by
  induction delays with
  | nil => exact absurd mem List.not_mem_nil
  | cons first rest ih =>
    rcases List.mem_cons.mp mem with rfl | later
    · exact le_max_left _ _
    · exact (ih later).trans (le_max_right _ _)

theorem greatest_cases (delays : List Nat) :
    greatest delays = 0 ∨ greatest delays ∈ delays := by
  induction delays with
  | nil => exact Or.inl rfl
  | cons first rest ih =>
    rcases max_choice first (greatest rest) with same | same
    · exact Or.inr (List.mem_cons.mpr (Or.inl same))
    · change max first (greatest rest) = 0 ∨ max first (greatest rest) ∈ first :: rest
      rw [same]
      exact ih.imp id (List.mem_cons_of_mem first)

/-! ## One call at any time -/

/-- What a store shows of a key. -/
def shown (store : Store κ) (now : Nat) (key : κ) : Option LoginState :=
  (find true store now key).bind fun entry =>
    match entry.value with
    | .state s => some s
    | .foreign => none

theorem find_of_shown {key : κ} {s : LoginState} (visible : shown store now key = some s) :
    table store key = some s ∧ ∃ ends, find true store now key = some ⟨.state s, ends⟩ := by
  obtain ⟨⟨value, ends⟩, found, same⟩ := Option.bind_eq_some_iff.mp visible
  have stored : store key = some ⟨value, ends⟩ := (Option.filter_eq_some_iff.mp found).1
  cases value with
  | foreign => cases same
  | state s' =>
    cases same
    exact ⟨by rw [table, stored]; rfl, ends, found⟩

/-- The call passes the first loop of the script: every stored key is in order and none is
blocked. -/
def Passes (limit : κ → LoginLimit) (store : Store κ) (now : Nat) (keys : List κ) : Prop :=
  ∀ key ∈ keys, fault (limit key).value (find true store now key) = none ∧
    remaining now (find true store now key) = 0

theorem Passes.free {keys : List κ} (passes : Passes limit store now keys) {key : κ}
    (named : key ∈ keys) {s : LoginState} (visible : shown store now key = some s) :
    s.blocked ≤ now := by
  obtain ⟨-, ends, found⟩ := find_of_shown visible
  have free := (passes key named).2
  rw [found] at free
  exact Nat.sub_eq_zero_iff_le.mp free

/-- The table that the script reads for a key, or starts. -/
def reading (store : Store κ) (now : Nat) (key : κ) : LoginState :=
  current now (find true store now key)

variable [DecidableEq κ]

theorem Passes.rateScript_eq {keys : List κ} (passes : Passes limit store now keys) :
    rateScript true (fun key => (limit key).value) store now keys =
      (if greatest (keys.map fun key =>
          (count now (limit key).value (reading store now key)).2) = 0 then .admitted
        else .refused (inSeconds (greatest (keys.map fun key =>
          (count now (limit key).value (reading store now key)).2))),
        fun key =>
          if key ∈ keys then some (written true (fun key => (limit key).value) store now key)
          else store key) := by
  have faultless : (keys.findSome? fun key =>
      fault (limit key).value (find true store now key)) = none :=
    List.findSome?_eq_none_iff.mpr fun key named => (passes key named).1
  have free : greatest (keys.map fun key => remaining now (find true store now key)) = 0 := by
    rcases greatest_cases (keys.map fun key => remaining now (find true store now key))
      with zero | mem
    · exact zero
    · obtain ⟨key, named, same⟩ := List.mem_map.mp mem
      exact same ▸ (passes key named).2
  rw [rateScript, faultless]
  simp only [free]
  exact if_neg (Nat.lt_irrefl 0)

theorem rateScript_of_not_passes {keys : List κ} (stopped : ¬ Passes limit store now keys) :
    (rateScript true (fun key => (limit key).value) store now keys).1 ≠ .admitted ∧
      (rateScript true (fun key => (limit key).value) store now keys).2 = store := by
  unfold rateScript
  cases faults : keys.findSome? fun key =>
      fault (limit key).value (find true store now key) with
  | some error => exact ⟨by simp, rfl⟩
  | none =>
    have faultless := List.findSome?_eq_none_iff.mp faults
    have blocked : 0 < greatest (keys.map fun key => remaining now (find true store now key)) := by
      by_contra none
      refine stopped fun key named => ⟨faultless key named, ?_⟩
      have bound := le_greatest (List.mem_map_of_mem (f := fun key =>
        remaining now (find true store now key)) named)
      omega
    simp only [blocked, if_true]
    exact ⟨by simp, trivial⟩

/-! ## One call at a time that JSON keeps -/

theorem rateScript_expiring (kept : Kept limit now store) (exact : Exact now) (keys : List κ) :
    rateScript true (fun key => (limit key).value) store now keys =
      rateScript false (fun key => (limit key).value) store now keys := by
  have same := kept.find_expiring exact
  have current_eq := fun key => (same key).2.2.1
  have remaining_eq := fun key => (same key).2.2.2
  have faultless : ∀ expiring, (keys.findSome? fun key =>
      fault (limit key).value (find expiring store now key)) = none := by
    intro expiring
    rw [List.findSome?_eq_none_iff]
    intro key _
    cases expiring
    · exact (same key).2.1
    · exact (same key).1
  simp only [rateScript, faultless, written, current_eq, remaining_eq]

omit [DecidableEq κ] in
theorem Kept.remaining_eq (kept : Kept limit now store) (key : κ) :
    remaining now (find false store now key) =
      ((table store key).map fun s => s.blocked - now).getD 0 := by
  cases stored : store key with
  | none => simp [find, stored, remaining, table]
  | some entry =>
    obtain ⟨s, rfl, -⟩ := kept key entry stored
    simp only [find_false, stored, remaining, table]
    rfl

def counting (store : Store κ) (now : Nat) (key : κ) : LoginState :=
  current now (find false store now key)

omit [DecidableEq κ] in
theorem Kept.counting_eq (kept : Kept limit now store) (key : κ) :
    counting store now key =
      match table store key with
      | some s => if quiet ≤ now - s.last then fresh now else s
      | none => fresh now := by
  unfold counting
  cases stored : store key with
  | none => simp [find, stored, current, table]
  | some entry =>
    obtain ⟨s, rfl, -⟩ := kept key entry stored
    simp only [find_false, stored, current, table]
    rfl

/-- No key of a call is blocked. -/
def Free (store : Store κ) (now : Nat) (keys : List κ) : Prop :=
  ∀ key ∈ keys, ∀ s, table store key = some s → s.blocked ≤ now

omit [DecidableEq κ] in
theorem Kept.countable (kept : Kept limit now store) {keys : List κ} (free : Free store now keys)
    {key : κ} (named : key ∈ keys) : Countable (limit key) now (counting store now key) := by
  rw [kept.counting_eq]
  cases stored : table store key with
  | none => exact Or.inl rfl
  | some s =>
    obtain ⟨-, sound⟩ := kept.of_table stored
    dsimp only
    split_ifs with quietly
    · exact Or.inl rfl
    · exact Or.inr ⟨sound, free key named s stored⟩

def countedTable (limit : κ → LoginLimit) (store : Store κ) (now : Nat) (key : κ) : LoginState :=
  (count now (limit key).value (counting store now key)).1

def startedBlock (limit : κ → LoginLimit) (store : Store κ) (now : Nat) (key : κ) : Nat :=
  (count now (limit key).value (counting store now key)).2

def countedStore (limit : κ → LoginLimit) (store : Store κ) (now : Nat) (keys : List κ) :
    Store κ := fun key =>
  if key ∈ keys then some ⟨.state (countedTable limit store now key), some (now + lifetime)⟩
  else store key

def blockedFor (store : Store κ) (now : Nat) (keys : List κ) : Nat :=
  greatest (keys.map fun key => remaining now (find false store now key))

def startedFor (limit : κ → LoginLimit) (store : Store κ) (now : Nat) (keys : List κ) : Nat :=
  greatest (keys.map (startedBlock limit store now))

omit [DecidableEq κ] in
theorem Kept.free_iff (kept : Kept limit now store) (keys : List κ) :
    Free store now keys ↔ blockedFor store now keys = 0 := by
  constructor
  · intro free
    rcases greatest_cases (keys.map fun key => remaining now (find false store now key))
      with zero | mem
    · exact zero
    · obtain ⟨key, named, same⟩ := List.mem_map.mp mem
      rw [blockedFor, ← same, kept.remaining_eq]
      cases stored : table store key with
      | none => rfl
      | some s => exact Nat.sub_eq_zero_of_le (free key named s stored)
  · intro zero key named s stored
    have bound := le_greatest (List.mem_map_of_mem (f := fun key =>
      remaining now (find false store now key)) named)
    simp only [kept.remaining_eq, stored] at bound
    unfold blockedFor at zero
    simp only [kept.remaining_eq] at zero
    simp only [Option.map_some, Option.getD_some] at bound
    omega

omit [DecidableEq κ] in
theorem Kept.blockedFor_bounds (kept : Kept limit now store) (keys : List κ) :
    blockedFor store now keys ≤ maximum ∧ ∀ key ∈ keys, ∀ s, table store key = some s →
      s.blocked ≤ now + blockedFor store now keys := by
  constructor
  · rcases greatest_cases (keys.map fun key => remaining now (find false store now key))
      with zero | mem
    · exact (Nat.le_of_eq zero).trans (Nat.zero_le _)
    · obtain ⟨key, -, same⟩ := List.mem_map.mp mem
      rw [blockedFor, ← same, kept.remaining_eq]
      cases stored : table store key with
      | none => exact Nat.zero_le _
      | some s =>
        have bound := (kept.of_table stored).2.blocked_le
        have past := (kept.of_table stored).2.past
        simp only [Option.map_some, Option.getD_some]
        omega
  · intro key named s stored
    have bound := le_greatest (List.mem_map_of_mem (f := fun key =>
      remaining now (find false store now key)) named)
    simp only [kept.remaining_eq key, stored, Option.map_some, Option.getD_some] at bound
    unfold blockedFor
    omega

omit [DecidableEq κ] in
theorem startedFor_bounds (limit : κ → LoginLimit) (store : Store κ) (now : Nat)
    (keys : List κ) :
    (startedFor limit store now keys = 0 ∨
        window ≤ startedFor limit store now keys ∧ startedFor limit store now keys ≤ maximum) ∧
      ∀ key ∈ keys, startedBlock limit store now key ≤ startedFor limit store now keys := by
  refine ⟨?_, fun key named => le_greatest (List.mem_map_of_mem named)⟩
  rcases greatest_cases (keys.map (startedBlock limit store now)) with zero | mem
  · exact Or.inl zero
  · obtain ⟨key, -, same⟩ := List.mem_map.mp mem
    rw [startedFor, ← same]
    rcases count_block (limit key) now (counting store now key) with
      ⟨-, none, -⟩ | ⟨-, long, short, -⟩
    · exact Or.inl none
    · exact Or.inr ⟨long, short⟩

theorem Kept.rateScript_eq (kept : Kept limit now store) (exact : Exact now) (expiring : Bool)
    (keys : List κ) :
    rateScript expiring (fun key => (limit key).value) store now keys =
      if 0 < blockedFor store now keys then
        (.refused (inSeconds (blockedFor store now keys)), store)
      else
        (if startedFor limit store now keys = 0 then .admitted
          else .refused (inSeconds (startedFor limit store now keys)),
          countedStore limit store now keys) := by
  have faultless : (keys.findSome? fun key =>
      fault (limit key).value (find false store now key)) = none :=
    List.findSome?_eq_none_iff.mpr fun key _ => (kept.find_expiring exact key).2.1
  have plain : rateScript expiring (fun key => (limit key).value) store now keys =
      rateScript false (fun key => (limit key).value) store now keys := by
    cases expiring
    · rfl
    · exact rateScript_expiring kept exact keys
  rw [plain, rateScript, faultless]
  by_cases blocked : 0 < blockedFor store now keys
  · rw [if_pos blocked]
    exact if_pos blocked
  · rw [if_neg blocked]
    have free := (kept.free_iff keys).mpr (Nat.eq_zero_of_not_pos blocked)
    refine (if_neg blocked).trans (Prod.ext rfl (funext fun key => ?_))
    by_cases named : key ∈ keys
    · have sound := (kept.countable free named).count_sound
      simp only [countedStore, named, if_true, written]
      rw [show (count now (limit key).value (current now (find false store now key))).1.encoded =
        countedTable limit store now key from sound.encoded exact]
    · simp only [countedStore, named, if_false]

omit [DecidableEq κ] in
theorem Kept.passes_iff (kept : Kept limit now store) (exact : Exact now) (keys : List κ) :
    Passes limit store now keys ↔ Free store now keys := by
  constructor
  · intro passes key named s stored
    have free := (passes key named).2
    rw [(kept.find_expiring exact key).2.2.2, kept.remaining_eq, stored] at free
    exact Nat.sub_eq_zero_iff_le.mp free
  · intro free key named
    refine ⟨(kept.find_expiring exact key).1, ?_⟩
    rw [(kept.find_expiring exact key).2.2.2, kept.remaining_eq]
    cases stored : table store key with
    | none => rfl
    | some s => exact Nat.sub_eq_zero_of_le (free key named s stored)

theorem table_countedStore {keys : List κ} {key : κ} (named : key ∈ keys) :
    table (countedStore limit store now keys) key = some (countedTable limit store now key) := by
  simp [table, countedStore, named]

theorem countedStore_of_not_mem {keys : List κ} {key : κ} (other : key ∉ keys) :
    countedStore limit store now keys key = store key := by
  simp [countedStore, other]

theorem Kept.countedStore (kept : Kept limit now store) {keys : List κ}
    (free : Free store now keys) : Kept limit now (countedStore limit store now keys) := by
  intro key entry stored
  by_cases named : key ∈ keys
  · simp only [SkillMind.Auth.countedStore, named, if_true, Option.some.injEq] at stored
    refine ⟨_, ?_, (kept.countable free named).count_sound⟩
    rw [← stored, count_last]
    rfl
  · rw [countedStore_of_not_mem named] at stored
    exact kept key entry stored

omit [DecidableEq κ] in
theorem Kept.shown_eq_some (kept : Kept limit now store) {time : Nat} {key : κ} {s : LoginState} :
    shown store time key = some s ↔ table store key = some s ∧ time ≤ s.last + lifetime := by
  cases stored : store key with
  | none => simp [shown, table, find, stored]
  | some entry =>
    obtain ⟨s', rfl, -⟩ := kept key entry stored
    by_cases there : time ≤ s'.last + lifetime
    · simp only [shown, table, find, stored, Option.filter, Bool.not_true, Option.all_some,
        there, decide_true, Bool.or_true, if_true, Option.bind_some, Option.some.injEq]
      exact ⟨fun same => ⟨same, same ▸ there⟩, fun both => both.1⟩
    · simp only [shown, table, find, stored, Option.filter, Bool.not_true, Option.all_some,
        there, decide_false, Bool.or_false, Bool.false_eq_true, if_false, Option.bind_none,
        Option.bind_some, Option.some.injEq, reduceCtorEq, false_iff, not_and]
      exact fun same => same ▸ there

end Stores

end SkillMind.Auth
