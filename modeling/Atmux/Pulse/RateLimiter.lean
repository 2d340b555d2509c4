/-
The receiver's fixed-window limiter.

An entry goes when its key was not seen for a window, and its window is counted
from the call that opened it. Within a window an entry never goes by itself, so
`Counts` follows it from call to call; a new key may push it out of a full
table. `limiter_bounds_keys` is what a run is known to keep to.
-/
import Mathlib.Data.List.Nodup
import Mathlib.Order.Lattice

namespace Atmux.Pulse

def u32Max : Nat := 0xffffffff

structure RateEntry where
  windowStarted : Nat
  lastSeen : Nat
  attempts : Nat
deriving DecidableEq, Repr

/-- What `BoundedRateLimiter::new` takes. -/
structure RateLimits where
  limit : Nat
  window : Nat
  maxEntries : Nat
  limit_pos : 0 < limit
  limit_le : limit ≤ u32Max
  window_pos : 0 < window
  entries_pos : 0 < maxEntries
  entries_le : maxEntries ≤ 100000

/-- A call of `allow`. The table is iterated in no order that is known, so of
the entries that were seen longest ago any may be found; `tie` is the one that is. -/
structure RateCall (K : Type) where
  key : K
  now : Nat
  tie : K
deriving DecidableEq, Repr

namespace RateLimiter

variable {K : Type} [DecidableEq K]

def fresh (now : Nat) : RateEntry := ⟨now, now, 1⟩

def entryOf (entries : List (K × RateEntry)) (key : K) : Option RateEntry :=
  (entries.find? fun entry => entry.1 = key).map Prod.snd

/-- `HashMap::get_mut` of a key that is there. -/
def setEntry (entries : List (K × RateEntry)) (key : K) (value : RateEntry) : List (K × RateEntry) :=
  entries.map fun entry => if entry.1 = key then (key, value) else entry

/-- A key that was seen longest ago. -/
def oldest (entries : List (K × RateEntry)) (tie : K) : Option K :=
  (entries.map fun entry => entry.2.lastSeen).min?.bind fun least =>
    let candidates := entries.filter fun entry => entry.2.lastSeen = least
    ((candidates.find? fun entry => entry.1 = tie).or candidates.head?).map Prod.fst

section Allow

variable (limits : RateLimits)

def retained (entries : List (K × RateEntry)) (now : Nat) : List (K × RateEntry) :=
  entries.filter fun entry => decide (now - entry.2.lastSeen ≤ limits.window)

/-- The key that a new one pushes out of a full table. -/
def pushedOut (entries : List (K × RateEntry)) (call : RateCall K) : Option K :=
  if limits.maxEntries ≤ entries.length then oldest entries call.tie else none

def allow (entries : List (K × RateEntry)) (call : RateCall K) : Bool × List (K × RateEntry) :=
  let entries := retained limits entries call.now
  match entryOf entries call.key with
  | some entry =>
    if limits.window ≤ call.now - entry.windowStarted then (true, setEntry entries call.key (fresh call.now))
    else
      let attempts := min (entry.attempts + 1) u32Max
      (decide (attempts ≤ limits.limit),
        setEntry entries call.key { entry with lastSeen := call.now, attempts })
  | none =>
    let entries := match pushedOut limits entries call with
      | some oldest => entries.filter fun entry => entry.1 ≠ oldest
      | none => entries
    (true, entries ++ [(call.key, fresh call.now)])

/-- The table after some calls. -/
def run : List (K × RateEntry) → List (RateCall K) → List (K × RateEntry)
  | entries, [] => entries
  | entries, call :: calls => run (allow limits entries call).2 calls

/-- What the calls of a key were answered. -/
def answers (key : K) : List (K × RateEntry) → List (RateCall K) → List Bool
  | _, [] => []
  | entries, call :: calls =>
    let rest := answers key (allow limits entries call).2 calls
    if call.key = key then (allow limits entries call).1 :: rest else rest

/-- The call starts a window for its key. -/
def Opens (entries : List (K × RateEntry)) (call : RateCall K) : Prop :=
  ∀ entry, entryOf (retained limits entries call.now) call.key = some entry →
    limits.window ≤ call.now - entry.windowStarted

/-- The call pushes the key out of a full table. -/
def Evicts (entries : List (K × RateEntry)) (call : RateCall K) (key : K) : Prop :=
  entryOf (retained limits entries call.now) call.key = none ∧
    pushedOut limits (retained limits entries call.now) call = some key

/-- None of the calls pushes the key out. -/
def Undisturbed (key : K) : List (K × RateEntry) → List (RateCall K) → Prop
  | _, [] => True
  | entries, call :: calls => ¬ Evicts limits entries call key ∧ Undisturbed key (allow limits entries call).2 calls

instance (entries : List (K × RateEntry)) (call : RateCall K) (key : K) : Decidable (Evicts limits entries call key) :=
  inferInstanceAs (Decidable (_ ∧ _))

instance decidableUndisturbed (key : K) :
    (entries : List (K × RateEntry)) → (calls : List (RateCall K)) → Decidable (Undisturbed limits key entries calls)
  | _, [] => isTrue trivial
  | entries, call :: calls =>
    have := decidableUndisturbed key (allow limits entries call).2 calls
    inferInstanceAs (Decidable (_ ∧ _))

end Allow

/-! ## Entries -/

variable {limits : RateLimits} {entries : List (K × RateEntry)} {call : RateCall K} {key other : K} {entry value : RateEntry}

theorem entryOf_filter {p : K × RateEntry → Bool} (h : entryOf entries key = some entry) (hp : p (key, entry) = true) :
    entryOf (entries.filter p) key = some entry := by
  rw [entryOf] at h ⊢
  obtain ⟨found, hfound, rfl⟩ := Option.map_eq_some_iff.1 h
  have hkey : found.1 = key := by simpa using List.find?_some hfound
  clear h
  induction entries with
  | nil => cases hfound
  | cons first entries ih =>
    rw [List.find?_cons] at hfound
    split at hfound
    next hfirst =>
      obtain rfl := Option.some.inj hfound
      have hkept : p first = true := by rwa [← hkey] at hp
      rw [List.filter_cons_of_pos hkept, List.find?_cons, hfirst]
      rfl
    next hfirst =>
      have hrest := ih hfound
      rw [List.filter_cons]
      split
      · rw [List.find?_cons, hfirst]
        exact hrest
      · exact hrest

theorem entryOf_cons (first : K × RateEntry) :
    entryOf (first :: entries) key = if first.1 = key then some first.2 else entryOf entries key := by
  rw [entryOf, List.find?_cons]
  by_cases h : first.1 = key
  · simp [h]
  · simp [h, entryOf]

theorem entryOf_setEntry (h : (entryOf entries key).isSome = true) : entryOf (setEntry entries key value) key = some value := by
  induction entries with
  | nil => cases h
  | cons first entries ih =>
    rw [entryOf_cons] at h
    rw [setEntry, List.map_cons, ← setEntry, entryOf_cons]
    by_cases hfirst : first.1 = key
    · simp [hfirst]
    · rw [if_neg hfirst] at h ⊢
      rw [if_neg hfirst]
      exact ih h

theorem entryOf_setEntry_of_ne (h : other ≠ key) : entryOf (setEntry entries key value) other = entryOf entries other := by
  induction entries with
  | nil => rfl
  | cons first entries ih =>
    rw [setEntry, List.map_cons, ← setEntry, entryOf_cons, entryOf_cons, ih]
    by_cases hfirst : first.1 = key
    · rw [if_pos hfirst, if_neg (fun heq => h heq.symm), if_neg (fun heq => h (heq.symm.trans hfirst))]
    · rw [if_neg hfirst]

theorem entryOf_append (h : entryOf entries key = some entry) (added : K × RateEntry) :
    entryOf (entries ++ [added]) key = some entry := by
  rw [entryOf] at h ⊢
  obtain ⟨found, hfound, rfl⟩ := Option.map_eq_some_iff.1 h
  rw [List.find?_append, hfound]
  rfl

theorem entryOf_append_of_ne (added : K × RateEntry) (h : added.1 ≠ key) :
    entryOf (entries ++ [added]) key = entryOf entries key := by
  rw [entryOf, List.find?_append, List.find?_cons, decide_eq_false h, List.find?_nil, Option.or_none, entryOf]

theorem entryOf_added (h : entryOf entries key = none) : entryOf (entries ++ [(key, value)]) key = some value := by
  rw [entryOf, Option.map_eq_none_iff] at h
  rw [entryOf, List.find?_append, h]
  simp

/-- An entry that was seen within the window is retained. -/
theorem entryOf_retained {now : Nat} (h : entryOf entries key = some entry) (hseen : now - entry.lastSeen ≤ limits.window) :
    entryOf (retained limits entries now) key = some entry := entryOf_filter h (decide_eq_true hseen)

/-! ## Size -/

theorem oldest_mem {tie : K} (h : oldest entries tie = some key) : ∃ entry ∈ entries, entry.1 = key := by
  obtain ⟨least, -, h⟩ := Option.bind_eq_some_iff.1 h
  obtain ⟨entry, hentry, rfl⟩ := Option.map_eq_some_iff.1 h
  refine ⟨entry, ?_, rfl⟩
  rcases Option.or_eq_some_iff.1 hentry with hfind | ⟨-, hhead⟩
  · exact (List.mem_filter.1 (List.mem_of_find?_eq_some hfind)).1
  · exact (List.mem_filter.1 (List.mem_of_mem_head? hhead)).1

theorem oldest_isSome (tie : K) (h : entries ≠ []) : ∃ key, oldest entries tie = some key := by
  obtain ⟨least, hleast⟩ : ∃ least, (entries.map fun entry => entry.2.lastSeen).min? = some least := by
    cases hmin : (entries.map fun entry => entry.2.lastSeen).min? with
    | none => exact absurd (by simpa using hmin) h
    | some least => exact ⟨least, rfl⟩
  obtain ⟨entry, hmem, hseen⟩ := List.mem_map.1 (List.min?_eq_some_iff.1 hleast).1
  have hcandidate : entry ∈ entries.filter fun entry => entry.2.lastSeen = least :=
    List.mem_filter.2 ⟨hmem, decide_eq_true hseen⟩
  rw [oldest, hleast, Option.bind_some]
  dsimp only
  cases hfind : (entries.filter fun entry => entry.2.lastSeen = least).find? fun entry => entry.1 = tie with
  | some found => exact ⟨found.1, rfl⟩
  | none =>
    cases hhead : (entries.filter fun entry => entry.2.lastSeen = least).head? with
    | some first => exact ⟨first.1, rfl⟩
    | none =>
      rw [List.head?_eq_none_iff.1 hhead] at hcandidate
      cases hcandidate

/-- A table within its bound stays within it. -/
theorem length_allow_le (h : entries.length ≤ limits.maxEntries) : (allow limits entries call).2.length ≤ limits.maxEntries := by
  have hkept : (retained limits entries call.now).length ≤ limits.maxEntries := (List.length_filter_le _ _).trans h
  rw [allow]
  dsimp only
  split
  · split
    · rwa [setEntry, List.length_map]
    · rwa [setEntry, List.length_map]
  · rw [List.length_append, List.length_singleton]
    by_cases hfull : limits.maxEntries ≤ (retained limits entries call.now).length
    · have hne : retained limits entries call.now ≠ [] := by
        intro hnil
        rw [hnil] at hfull
        exact absurd limits.entries_pos (not_lt.2 hfull)
      obtain ⟨oldest, holdest⟩ := oldest_isSome call.tie hne
      obtain ⟨entry, hmem, hentry⟩ := oldest_mem holdest
      rw [pushedOut, if_pos hfull, holdest]
      have hless : ((retained limits entries call.now).filter fun entry => entry.1 ≠ oldest).length <
          (retained limits entries call.now).length :=
        List.length_filter_lt_length_iff_exists.2 ⟨entry, hmem, by simp [hentry]⟩
      dsimp only
      omega
    · rw [pushedOut, if_neg hfull]
      dsimp only
      omega

theorem length_run_le {calls : List (RateCall K)} (h : entries.length ≤ limits.maxEntries) :
    (run limits entries calls).length ≤ limits.maxEntries := by
  induction calls generalizing entries with
  | nil => exact h
  | cons call calls ih => exact ih (length_allow_le h)

/-! ## Keys -/

/-- No key is in the table twice. -/
def Distinct (entries : List (K × RateEntry)) : Prop := (entries.map Prod.fst).Nodup

theorem entryOf_eq_none : entryOf entries key = none ↔ key ∉ entries.map Prod.fst := by
  induction entries with
  | nil => simp [entryOf]
  | cons first entries ih =>
    rw [entryOf_cons, List.map_cons, List.mem_cons]
    by_cases h : first.1 = key
    · simp [h]
    · rw [if_neg h, ih]
      simp [Ne.symm h]

omit [DecidableEq K] in
theorem Distinct.filter (h : Distinct entries) (p : K × RateEntry → Bool) : Distinct (entries.filter p) :=
  h.sublist (List.filter_sublist.map Prod.fst)

/-- Dropping entries brings no other of a key to light. -/
theorem Distinct.entryOf_filter (h : Distinct entries) {p : K × RateEntry → Bool}
    (hentry : entryOf (entries.filter p) key = some entry) : entryOf entries key = some entry := by
  induction entries with
  | nil => cases hentry
  | cons first entries ih =>
    obtain ⟨hfirst, hrest⟩ := List.nodup_cons.1 h
    rw [List.filter_cons] at hentry
    rw [entryOf_cons]
    split at hentry
    · rw [entryOf_cons] at hentry
      by_cases hkey : first.1 = key
      · rwa [if_pos hkey] at hentry ⊢
      · rw [if_neg hkey] at hentry ⊢
        exact ih hrest hentry
    · have hkept := ih hrest hentry
      by_cases hkey : first.1 = key
      · rw [hkey, ← entryOf_eq_none] at hfirst
        rw [hfirst] at hkept
        cases hkept
      · rwa [if_neg hkey]

theorem keys_setEntry : (setEntry entries key value).map Prod.fst = entries.map Prod.fst := by
  rw [setEntry, List.map_map]
  refine List.map_congr_left fun entry _ => ?_
  by_cases h : entry.1 = key
  · simp [h]
  · simp [h]

/-- What a table holds of the keys of a call before the call's own entry is put in. -/
def roomFor (limits : RateLimits) (entries : List (K × RateEntry)) (call : RateCall K) : List (K × RateEntry) :=
  match pushedOut limits entries call with
  | some oldest => entries.filter fun entry => entry.1 ≠ oldest
  | none => entries

theorem roomFor_cases (limits : RateLimits) (entries : List (K × RateEntry)) (call : RateCall K) :
    ∃ p : K × RateEntry → Bool, roomFor limits entries call = entries.filter p ∧
      ∀ entry : K × RateEntry, pushedOut limits entries call ≠ some entry.1 → p entry = true := by
  rw [roomFor]
  cases hpushed : pushedOut limits entries call with
  | none => exact ⟨fun _ => true, (List.filter_eq_self.2 fun _ _ => rfl).symm, fun _ _ => rfl⟩
  | some oldest =>
    exact ⟨fun entry => entry.1 ≠ oldest, rfl, fun entry hne => decide_eq_true fun heq => hne (congrArg some heq.symm)⟩

theorem allow_absent (h : entryOf (retained limits entries call.now) call.key = none) :
    allow limits entries call =
      (true, roomFor limits (retained limits entries call.now) call ++ [(call.key, fresh call.now)]) := by
  rw [allow]
  dsimp only
  rw [h]
  rfl

theorem Distinct.allow (h : Distinct entries) : Distinct (allow limits entries call).2 := by
  have hkept : Distinct (retained limits entries call.now) := h.filter _
  cases hentry : entryOf (retained limits entries call.now) call.key with
  | none =>
    rw [allow_absent hentry]
    obtain ⟨p, hroom, -⟩ := roomFor_cases limits (retained limits entries call.now) call
    rw [hroom, Distinct, List.map_append, List.nodup_append]
    refine ⟨hkept.filter p, by simp, fun key hkey other hother heq => ?_⟩
    obtain rfl := List.mem_singleton.1 hother
    rw [heq] at hkey
    exact entryOf_eq_none.1 hentry ((List.filter_sublist.map Prod.fst).subset hkey)
  | some entry =>
    rw [RateLimiter.allow]
    dsimp only
    rw [hentry]
    dsimp only
    split
    · rw [Distinct, keys_setEntry]
      exact hkept
    · rw [Distinct, keys_setEntry]
      exact hkept

theorem Distinct.run {calls : List (RateCall K)} (h : Distinct entries) : Distinct (run limits entries calls) := by
  induction calls generalizing entries with
  | nil => exact h
  | cons call calls ih => exact ih h.allow

/-! ## Windows -/

/-- A call that opens a window passes, and is the first of it. -/
theorem Opens.allow (h : Opens limits entries call) :
    (allow limits entries call).1 = true ∧ entryOf (allow limits entries call).2 call.key = some (fresh call.now) := by
  cases hentry : entryOf (retained limits entries call.now) call.key with
  | none =>
    rw [allow_absent hentry]
    obtain ⟨p, hroom, -⟩ := roomFor_cases limits (retained limits entries call.now) call
    refine ⟨rfl, entryOf_added ?_⟩
    rw [hroom, entryOf_eq_none]
    exact fun hmem => entryOf_eq_none.1 hentry ((List.filter_sublist.map Prod.fst).subset hmem)
  | some entry =>
    rw [RateLimiter.allow]
    dsimp only
    rw [hentry]
    dsimp only
    rw [if_pos (h entry hentry)]
    exact ⟨rfl, entryOf_setEntry (by rw [hentry]; rfl)⟩

/-- A call within its key's window is counted, and passes when the count is within the limit. -/
theorem allow_within (h : entryOf entries call.key = some entry) (hseen : call.now - entry.lastSeen ≤ limits.window)
    (hwindow : call.now - entry.windowStarted < limits.window) :
    (RateLimiter.allow limits entries call).1 = decide (min (entry.attempts + 1) u32Max ≤ limits.limit) ∧
      entryOf (RateLimiter.allow limits entries call).2 call.key =
        some ⟨entry.windowStarted, call.now, min (entry.attempts + 1) u32Max⟩ := by
  have hentry := entryOf_retained h hseen
  rw [RateLimiter.allow]
  dsimp only
  rw [hentry]
  dsimp only
  rw [if_neg (not_le.2 hwindow)]
  exact ⟨rfl, entryOf_setEntry (by rw [hentry]; rfl)⟩

/-- A call of another key leaves an entry that it does not push out. -/
theorem allow_other (h : entryOf entries key = some entry) (hseen : call.now - entry.lastSeen ≤ limits.window)
    (hkey : call.key ≠ key) (hstays : ¬ Evicts limits entries call key) :
    entryOf (RateLimiter.allow limits entries call).2 key = some entry := by
  have hentry := entryOf_retained h hseen
  cases hown : entryOf (retained limits entries call.now) call.key with
  | none =>
    rw [allow_absent hown]
    obtain ⟨p, hroom, hp⟩ := roomFor_cases limits (retained limits entries call.now) call
    refine entryOf_append ?_ _
    rw [hroom]
    exact entryOf_filter hentry (hp (key, entry) fun hpushed => hstays ⟨hown, hpushed⟩)
  | some own =>
    rw [RateLimiter.allow]
    dsimp only
    rw [hown]
    dsimp only
    split
    · rw [entryOf_setEntry_of_ne hkey.symm, hentry]
    · rw [entryOf_setEntry_of_ne hkey.symm, hentry]

/-- A call of another key brings no entry of the key. -/
theorem Distinct.entryOf_allow (h : Distinct entries) (hkey : call.key ≠ key)
    (hentry : entryOf (RateLimiter.allow limits entries call).2 key = some entry) : entryOf entries key = some entry := by
  have hretained : entryOf (retained limits entries call.now) key = some entry → entryOf entries key = some entry :=
    fun hkept => h.entryOf_filter hkept
  refine hretained ?_
  cases hown : entryOf (retained limits entries call.now) call.key with
  | none =>
    rw [allow_absent hown] at hentry
    obtain ⟨p, hroom, -⟩ := roomFor_cases limits (retained limits entries call.now) call
    rw [hroom] at hentry
    refine (h.filter _).entryOf_filter (p := p) ?_
    rwa [entryOf_append_of_ne (call.key, fresh call.now) hkey] at hentry
  | some own =>
    rw [RateLimiter.allow] at hentry
    dsimp only at hentry
    rw [hown] at hentry
    dsimp only at hentry
    split at hentry
    · rwa [entryOf_setEntry_of_ne hkey.symm] at hentry
    · rwa [entryOf_setEntry_of_ne hkey.symm] at hentry

/-! ## Runs -/

theorem run_append (earlier later : List (RateCall K)) :
    run limits entries (earlier ++ later) = run limits (run limits entries earlier) later := by
  induction earlier generalizing entries with
  | nil => rfl
  | cons call earlier ih => exact ih

/-- How often a key was called. -/
def callsOf (key : K) (calls : List (RateCall K)) : Nat := (calls.filter fun call => call.key = key).length

theorem callsOf_cons (calls : List (RateCall K)) :
    callsOf key (call :: calls) = if call.key = key then callsOf key calls + 1 else callsOf key calls := by
  rw [callsOf, List.filter_cons]
  by_cases h : call.key = key
  · simp [h, callsOf]
  · simp [h, callsOf]

/-- The first `passed` calls pass and the others do not. -/
def firstPass (passed count : Nat) : List Bool :=
  List.replicate (min count passed) true ++ List.replicate (count - passed) false

theorem firstPass_succ (passed count : Nat) :
    firstPass (passed + 1) (count + 1) = true :: firstPass passed count := by
  rw [firstPass, firstPass, Nat.add_min_add_right, Nat.add_sub_add_right, List.replicate_succ, List.cons_append]

theorem firstPass_zero (count : Nat) : firstPass 0 (count + 1) = false :: firstPass 0 count := by
  simp [firstPass, List.replicate_succ]

/-- The table holds `made` calls of the key's window, the last at `seen` or before. -/
structure Counts (entries : List (K × RateEntry)) (key : K) (started seen made : Nat) : Prop where
  entry : ∃ lastSeen, started ≤ lastSeen ∧ lastSeen ≤ seen ∧
    entryOf entries key = some ⟨started, lastSeen, min made u32Max⟩

/-- One call in the window: counted when it is of the key, and nothing otherwise. -/
theorem Counts.allow {started seen made : Nat} (h : Counts entries key started seen made) (htime : seen ≤ call.now)
    (hwindow : call.now < started + limits.window) (hstays : ¬ Evicts limits entries call key) :
    if call.key = key then
      (RateLimiter.allow limits entries call).1 = decide (min (made + 1) u32Max ≤ limits.limit) ∧
        Counts (RateLimiter.allow limits entries call).2 key started call.now (made + 1)
    else Counts (RateLimiter.allow limits entries call).2 key started call.now made := by
  obtain ⟨lastSeen, hstarted, hlast, hentry⟩ := h.entry
  have hseen : call.now - lastSeen ≤ limits.window := by omega
  split
  next hkey =>
    subst hkey
    have hinside : call.now - started < limits.window := by omega
    obtain ⟨hanswer, hafter⟩ := allow_within hentry hseen hinside
    have hcount : min (min made u32Max + 1) u32Max = min (made + 1) u32Max := by omega
    dsimp only at hanswer hafter
    rw [hcount] at hanswer hafter
    exact ⟨hanswer, ⟨call.now, by omega, le_refl _, hafter⟩⟩
  next hkey => exact ⟨lastSeen, hstarted, by omega, allow_other hentry hseen hkey hstays⟩

/-- Calls in the window of a key that stays: the next ones pass up to the limit and no other,
and the window stays the one that was opened. -/
theorem Counts.run {started seen made : Nat} {calls : List (RateCall K)} (h : Counts entries key started seen made)
    (hlimit : limits.limit < u32Max) (htimes : calls.Pairwise fun earlier later => earlier.now ≤ later.now)
    (hseen : ∀ call ∈ calls, seen ≤ call.now) (hwindow : ∀ call ∈ calls, call.now < started + limits.window)
    (hstays : Undisturbed limits key entries calls) :
    answers limits key entries calls = firstPass (limits.limit - made) (callsOf key calls) ∧
      ∃ seen made, Counts (RateLimiter.run limits entries calls) key started seen made := by
  induction calls generalizing entries seen made with
  | nil => exact ⟨by simp [answers, callsOf, firstPass], seen, made, h⟩
  | cons call calls ih =>
    obtain ⟨hfirst, hrest⟩ := List.pairwise_cons.1 htimes
    obtain ⟨hkept, hstays⟩ := hstays
    have hstep := h.allow (hseen call List.mem_cons_self) (hwindow call List.mem_cons_self) hkept
    have hlater : ∀ next ∈ calls, next.now < started + limits.window :=
      fun next hnext => hwindow next (List.mem_cons_of_mem _ hnext)
    split at hstep
    next hkey =>
      obtain ⟨hanswer, hcounts⟩ := hstep
      obtain ⟨hanswers, hleft⟩ := ih hcounts hrest hfirst hlater hstays
      refine ⟨?_, hleft⟩
      rw [answers, if_pos hkey, hanswers, hanswer, callsOf_cons, if_pos hkey]
      by_cases hpasses : made + 1 ≤ limits.limit
      · have hsome : limits.limit - made = limits.limit - (made + 1) + 1 := by omega
        rw [hsome, firstPass_succ, decide_eq_true (le_trans (min_le_left _ _) hpasses)]
      · have hdenied : ¬ min (made + 1) u32Max ≤ limits.limit := by omega
        have hnone : limits.limit - (made + 1) = 0 := by omega
        have hspent : limits.limit - made = 0 := by omega
        rw [decide_eq_false hdenied, hnone, hspent, firstPass_zero]
    next hkey =>
      obtain ⟨hanswers, hleft⟩ := ih hstep hrest hfirst hlater hstays
      refine ⟨?_, hleft⟩
      rw [answers, if_neg hkey, hanswers, callsOf_cons, if_neg hkey]

/-- While its key is not called, the window that an entry counts is the same. -/
theorem run_windowStarted {started : Nat} {calls : List (RateCall K)} (hdistinct : Distinct entries)
    (h : ∀ entry, entryOf entries key = some entry → entry.windowStarted = started)
    (hkeys : ∀ call ∈ calls, call.key ≠ key) :
    ∀ entry, entryOf (run limits entries calls) key = some entry → entry.windowStarted = started := by
  induction calls generalizing entries with
  | nil => exact h
  | cons call calls ih =>
    refine ih hdistinct.allow ?_ fun next hnext => hkeys next (List.mem_cons_of_mem _ hnext)
    intro entry hentry
    exact h entry (hdistinct.entryOf_allow (hkeys call List.mem_cons_self) hentry)

/-- A call past the end of the only window its key can have opens a new one. -/
theorem opens_of_windowStarted {started : Nat} (hdistinct : Distinct entries)
    (h : ∀ entry, entryOf entries call.key = some entry → entry.windowStarted = started)
    (hlate : started + limits.window ≤ call.now) : Opens limits entries call := by
  intro entry hentry
  have hstarted := h entry (hdistinct.entryOf_filter hentry)
  omega

/-- **A limiter bounds its table and its keys.** The table never holds more than
`max_entries` keys. Of the calls a key makes in a window, from the one that opened it
and while the key is not pushed out, the first `limit` pass and the others do not;
and its next call, at the end of the window or after, opens a new one. -/
theorem limiter_bounds_keys (limits : RateLimits) (hlimit : limits.limit < u32Max) (calls : List (RateCall K))
    (htimes : calls.Pairwise fun earlier later => earlier.now ≤ later.now) :
    (∀ earlier later, calls = earlier ++ later → (run limits [] earlier).length ≤ limits.maxEntries) ∧
      ∀ earlier opening within later, calls = earlier ++ opening :: (within ++ later) →
        Opens limits (run limits [] earlier) opening →
        (∀ call ∈ within, call.now < opening.now + limits.window) →
        Undisturbed limits opening.key (allow limits (run limits [] earlier) opening).2 within →
        answers limits opening.key (run limits [] earlier) (opening :: within) =
            List.replicate (min (callsOf opening.key (opening :: within)) limits.limit) true ++
              List.replicate (callsOf opening.key (opening :: within) - limits.limit) false ∧
          ∀ between next rest, later = between ++ next :: rest → (∀ call ∈ between, call.key ≠ opening.key) →
            next.key = opening.key → opening.now + limits.window ≤ next.now →
            Opens limits (run limits [] (earlier ++ opening :: (within ++ between))) next ∧
              (allow limits (run limits [] (earlier ++ opening :: (within ++ between))) next).1 = true ∧
              entryOf (allow limits (run limits [] (earlier ++ opening :: (within ++ between))) next).2 next.key =
                some (fresh next.now) := by
  refine ⟨fun earlier later _ => length_run_le (Nat.zero_le _), ?_⟩
  intro earlier opening within later hcalls hopens hwindow hstays
  have hdistinct : Distinct (run limits [] earlier) := Distinct.run List.nodup_nil
  obtain ⟨hpasses, hfresh⟩ := hopens.allow
  rw [hcalls, List.pairwise_append, List.pairwise_cons, List.pairwise_append] at htimes
  obtain ⟨-, ⟨hafter, hordered, -, -⟩, -⟩ := htimes
  have hstart : Counts (allow limits (run limits [] earlier) opening).2 opening.key opening.now opening.now 1 :=
    ⟨opening.now, le_refl _, le_refl _, hfresh⟩
  obtain ⟨hanswers, seen, made, hleft⟩ := hstart.run hlimit hordered
    (fun call hcall => hafter call (List.mem_append_left _ hcall)) hwindow hstays
  refine ⟨?_, fun between next rest _ hbetween hkey hlate => ?_⟩
  · have hone : limits.limit = limits.limit - 1 + 1 := (Nat.sub_add_cancel limits.limit_pos).symm
    rw [answers, if_pos rfl, hpasses, hanswers, ← firstPass_succ, ← hone, callsOf_cons, if_pos rfl, firstPass]
  · obtain ⟨lastSeen, -, -, hentry⟩ := hleft.entry
    have hrun : run limits [] (earlier ++ opening :: (within ++ between)) =
        run limits (run limits (allow limits (run limits [] earlier) opening).2 within) between := by
      rw [run_append, run, run_append]
    have hopen : Opens limits (run limits [] (earlier ++ opening :: (within ++ between))) next := by
      rw [hrun]
      refine opens_of_windowStarted hdistinct.allow.run.run ?_ hlate
      rw [hkey]
      refine run_windowStarted hdistinct.allow.run ?_ hbetween
      intro entry hfound
      rw [hentry] at hfound
      obtain rfl := Option.some.inj hfound
      rfl
    exact ⟨hopen, hopen.allow⟩

theorem burst_denied_until_reset :
    let limits : RateLimits := ⟨2, 10, 2, by decide, by decide, by decide, by decide, by decide⟩
    let opening : RateCall Nat := ⟨1, 0, 1⟩
    let within : List (RateCall Nat) := [⟨1, 1, 1⟩, ⟨2, 3, 1⟩, ⟨1, 9, 1⟩]
    let next : RateCall Nat := ⟨1, 10, 1⟩
    answers limits 1 [] (opening :: within) = [true, true, false] ∧
      (allow limits (run limits [] (opening :: within)) next).1 = true := by
  intro limits opening within next
  have hbounds := (limiter_bounds_keys limits (by decide) (opening :: (within ++ [next])) (by decide)).2 [] opening within
    [next] rfl (by intro entry hentry; cases hentry) (by decide) (by decide)
  exact ⟨hbounds.1, (hbounds.2 [] next [] rfl (by intro call hcall; cases hcall) rfl (by decide)).2.1⟩

/-! ## A limit that cannot be passed -/

/-- Attempts stop at `u32::MAX`, and a limit of as much denies no call. -/
theorem allow_saturated (hlimit : limits.limit = u32Max) : (allow limits entries call).1 = true := by
  rw [allow]
  dsimp only
  split
  · split
    · rfl
    · exact decide_eq_true (hlimit ▸ min_le_right _ _)
  · rfl

theorem answers_saturated {calls : List (RateCall K)} (hlimit : limits.limit = u32Max) :
    answers limits key entries calls = List.replicate (callsOf key calls) true := by
  induction calls generalizing entries with
  | nil => rfl
  | cons call calls ih =>
    rw [answers, ih, allow_saturated hlimit, callsOf_cons]
    split
    · rfl
    · rfl

/-- A key that is called again and again in its window stays in the table. -/
theorem Counts.undisturbed {started seen made : Nat} (h : Counts entries call.key started seen made) (hseen : seen ≤ call.now)
    (hwindow : call.now < started + limits.window) (count : Nat) :
    Undisturbed limits call.key entries (List.replicate count call) := by
  induction count generalizing entries seen made with
  | zero => trivial
  | succ count ih =>
    have hstays : ¬ Evicts limits entries call call.key := by
      rintro ⟨hnone, -⟩
      obtain ⟨lastSeen, _, _, hentry⟩ := h.entry
      have hlast : call.now - lastSeen ≤ limits.window := by omega
      rw [entryOf_retained hentry hlast] at hnone
      cases hnone
    have hstep := h.allow hseen hwindow hstays
    rw [if_pos rfl] at hstep
    exact ⟨hstays, ih hstep.2 (le_refl _)⟩

/-- At the greatest limit there is, one window passes more calls than the limit. -/
theorem saturated_limit_exceeded :
    let limits : RateLimits := ⟨u32Max, 1, 1, by decide, by decide, by decide, by decide, by decide⟩
    let opening : RateCall Nat := ⟨0, 0, 0⟩
    let within := List.replicate u32Max opening
    (opening :: within).Pairwise (fun earlier later => earlier.now ≤ later.now) ∧ Opens limits [] opening ∧
      (∀ call ∈ within, call.now < opening.now + limits.window) ∧
      Undisturbed limits opening.key (allow limits [] opening).2 within ∧
      limits.limit < (answers limits opening.key [] (opening :: within)).count true := by
  intro limits opening within
  have hsame : ∀ call ∈ opening :: within, call = opening := by
    intro call hcall
    rcases List.mem_cons.1 hcall with heq | hmem
    · exact heq
    · exact (List.mem_replicate.1 hmem).2
  have hopens : Opens limits [] opening := by
    intro entry hentry
    cases hentry
  have hstart : Counts (allow limits [] opening).2 opening.key 0 0 1 := ⟨0, le_refl _, le_refl _, hopens.allow.2⟩
  have hinside : opening.now < 0 + limits.window := Nat.one_pos
  refine ⟨?_, hopens, ?_, hstart.undisturbed (le_refl _) hinside _, ?_⟩
  · refine List.pairwise_of_forall_mem_list fun earlier hearlier later hlater => ?_
    rw [hsame earlier hearlier, hsame later hlater]
  · intro call hcall
    rw [hsame call (List.mem_cons_of_mem _ hcall)]
    exact Nat.one_pos
  · have hcalls : callsOf opening.key (opening :: within) = u32Max + 1 := by
      have hown : (opening :: within).filter (fun call => call.key = opening.key) = opening :: within :=
        List.filter_eq_self.2 fun call hcall => decide_eq_true (congrArg RateCall.key (hsame call hcall))
      rw [callsOf, hown, List.length_cons, List.length_replicate]
    rw [answers_saturated rfl, hcalls, List.count_replicate_self]
    exact Nat.lt_succ_self _

end RateLimiter

end Atmux.Pulse
