import Mathlib.Data.String.Basic
import Pluribus.Lib.JsonText
import Pluribus.Lib.Lists

namespace Pluribus.Memory

open Lib List Json

structure Record where
  id : String
  kind : String
  content : String
  scope : String
  sources : List String
  basis : String
  createdAtMs : Int
  supersedes : Option String
  expiresAtMs : Option Int

structure StoredRecord where
  record : Record
  root : String
  terms : List String

def Record.json (record : Record) : Json :=
  .object [("basis", .string record.basis), ("content", .string record.content),
    ("createdAtMs", .ofInt record.createdAtMs), ("expiresAtMs", .ofOption .ofInt record.expiresAtMs),
    ("id", .string record.id), ("kind", .string record.kind), ("scope", .string record.scope),
    ("sources", .array (record.sources.map .string)), ("supersedes", .ofOption .string record.supersedes)]

def kinds : List String := ["fact", "preference", "belief", "goal", "procedure"]

structure Config where
  maxResultBytes : Nat
  maxResults : Nat

/-- What the engine takes from its libraries: the derived reader of a stored record, the digest of
a value and the words of a text, sorted and without repetition. -/
structure Library where
  fromValue : Json → Option StoredRecord
  hash : Json → String
  terms : String → List String

/-- The stored values and the changes not yet committed, each in the order of the keys. -/
structure Engine where
  store : Table String Json
  changes : Table String Json
  config : Config
  store_sorted : store.Pairwise (·.1 < ·.1)
  changes_sorted : changes.Pairwise (·.1 < ·.1)

structure Arguments where
  query : List String
  limit : Nat
  bytes : Nat
  kinds : List String
deriving DecidableEq

abbrev Candidate := Record × List String

def only (value : Json) (fields : List String) : Except String Unit :=
  match value with
  | .object entries => if entries.any (·.1 ∉ fields) then .error "invalid-argument" else .ok ()
  | _ => .error "invalid-argument"

def checked (max : Nat) (value : Json) : Except String String :=
  match value.asStr.filter fun text => !Text.blank text && Text.bytes text ≤ max with
  | some text => .ok text
  | none => .error "invalid-argument"

def strings (args : Json) (field : String) (max maxBytes : Nat) : Except String (List String) := do
  match (args.index field).asArray.filter fun items => !items.isEmpty && items.length ≤ max with
  | some items => items.foldlM (fun result item => do
      let text ← checked maxBytes item
      if text ∈ result then .error "invalid-argument" else .ok (result ++ [text])) []
  | none => .error "invalid-argument"

def number (args : Json) (field : String) (default max : Nat) : Except String Nat :=
  match args.get field with
  | none => .ok default
  | some value =>
    match value.asU64.filter fun n => 0 < n && n ≤ max with
    | some n => .ok n
    | none => .error "invalid-argument"

def isRecord (key : String) : Bool := "record/".toList.isPrefixOf key.toList

def rank : Candidate → Candidate → Ordering :=
  compareLex (fun a b => compare b.2.length a.2.length)
    (compareLex (fun a b => compare b.1.createdAtMs a.1.createdAtMs) fun a b => compare a.1.id b.1.id)

abbrev Before (a b : Candidate) : Prop := (rank a b).isLE

def item (candidate : Candidate) : Json :=
  .object [("matchedTerms", .array (candidate.2.map .string)), ("record", candidate.1.json)]

def result (records : List Json) (truncated : Bool) (sequence : Nat) : Json :=
  .object [("asOfSequence", .ofNat sequence), ("records", .array records), ("truncated", .bool truncated)]

def size (value : Json) : Nat := Text.bytes value.text

def bounded (value : Json) (bytes : Nat) : Except String Json :=
  if bytes < size value then .error "result-too-large" else .ok value

def pack (bytes sequence : Nat) (records : List Json) : List Json → Except String (List Json)
  | [] => .ok records
  | next :: rest =>
    if bytes < size (result (records ++ [next]) true sequence) then
      if records.isEmpty then .error "result-too-large" else .ok records
    else pack bytes sequence (records ++ [next]) rest

def emit (ranked : List Candidate) (limit bytes sequence : Nat) : Except String Json := do
  let records ← pack bytes sequence [] ((ranked.map item).take limit)
  bounded (result records (records.length < ranked.length) sequence) bytes

namespace Engine

variable (lib : Library) (e : Engine)

def arguments (args : Json) : Except String Arguments := do
  only args ["query", "scope", "kinds", "limit", "maxBytes"]
  let query ← checked 512 (args.index "query")
  let limit ← number args "limit" (min 8 e.config.maxResults) e.config.maxResults
  let bytes ← number args "maxBytes" (min 6000 e.config.maxResultBytes) e.config.maxResultBytes
  let chosen ← if (args.get "kinds").isSome then strings args "kinds" kinds.length 32 else .ok []
  if chosen.any (· ∉ kinds) then .error "invalid-argument"
  else .ok ⟨lib.terms query, limit, bytes, chosen⟩

def get (key : String) : Option Json := (Table.find e.changes key).or (Table.find e.store key)

def scan (after : Option String) (limit : Nat) : List (String × Json) :=
  (e.store.filter fun row => isRecord row.1 && after.all (· < row.1)).take limit

def current (stored : StoredRecord) : Bool :=
  e.get ("head/" ++ lib.hash (.string stored.root)) = some (.string stored.record.id)

def active (stored : StoredRecord) (scope : String) (now : Int) : Bool :=
  stored.record.scope = scope && e.current lib stored && stored.record.expiresAtMs.all (now < ·)

/-- A stored record as an answer to a query: none unless it is active, of a kind asked for, and
shares a word with the query. -/
def matching (asked : Arguments) (scope : String) (now : Int) (stored : StoredRecord) : Option Candidate :=
  let matched := asked.query.filter (· ∈ stored.terms)
  if e.active lib stored scope now && (asked.kinds.isEmpty || stored.record.kind ∈ asked.kinds) &&
    !matched.isEmpty then some (stored.record, matched) else none

def candidate (asked : Arguments) (scope : String) (now : Int) (value : Json) : Except String (Option Candidate) :=
  match lib.fromValue value with
  | some stored => .ok (e.matching lib asked scope now stored)
  | none => .error "storage-error"

/-- The pages of the scan, each after the last key of the one before, to the first empty one. -/
def pages : Nat → Option String → List (String × Json)
  | 0, _ => []
  | fuel + 1, after =>
    match (e.scan after 100).getLast? with
    | none => []
    | some last => e.scan after 100 ++ pages fuel (some last.1)

def values : List Json :=
  (e.pages (e.store.length + 1) none).map (fun row => (Table.find e.changes row.1).getD row.2) ++
    (e.changes.filter fun row => isRecord row.1 && (Table.find e.store row.1).isNone).map (·.2)

def candidates (asked : Arguments) (scope : String) (now : Int) : Except String (List Candidate) := do
  return (← e.values.mapM (e.candidate lib asked scope now)).filterMap id

def recallRecords (args : Json) (scope : String) (now : Int) (sequence : Nat) : Except String Json := do
  let asked ← e.arguments lib args
  let found ← e.candidates lib asked scope now
  emit (found.insertionSort Before) asked.limit asked.bytes sequence

end Engine

section Scan

variable {lib : Library} {e : Engine}

theorem scan_rest {done rest : List (String × Json)} (h : e.store.filter (isRecord ·.1) = done ++ rest) :
    e.scan (done.getLast?.map (·.1)) 100 = rest.take 100 := by
  have hsorted := e.store_sorted.filter fun row => isRecord row.1
  rw [h] at hsorted
  rw [Engine.scan, ← filter_filter, filter_comm, h, filter_after hsorted]

theorem pages_rest {fuel : Nat} {done rest : List (String × Json)}
    (h : e.store.filter (isRecord ·.1) = done ++ rest) (hfuel : rest.length < fuel) :
    e.pages fuel (done.getLast?.map (·.1)) = rest := by
  induction fuel generalizing done rest with
  | zero => omega
  | succ fuel ih =>
    rw [Engine.pages, scan_rest h]
    cases hlast : (rest.take 100).getLast? with
    | none =>
      have hnil : rest.take 100 = [] := getLast?_eq_none_iff.mp hlast
      simpa using hnil.symm
    | some last =>
      have hdone : (done ++ rest.take 100).getLast?.map (·.1) = some last.1 := by simp [hlast]
      have hne : rest ≠ [] := by
        rintro rfl
        simp at hlast
      have hlength := length_pos_iff.mpr hne
      have hsplit : e.store.filter (isRecord ·.1) = (done ++ rest.take 100) ++ rest.drop 100 := by
        rw [h, append_assoc, take_append_drop]
      have hrest := ih hsplit (by rw [length_drop]; omega)
      rw [hdone] at hrest
      simp only [hrest, take_append_drop]

def Engine.recordKeys (e : Engine) : List String :=
  ((e.store.filter (isRecord ·.1)) ++ e.changes.filter fun row =>
    isRecord row.1 && (Table.find e.store row.1).isNone).map (·.1)

theorem find_of_sorted {table : Table String Json} (h : table.Pairwise (·.1 < ·.1)) {row : String × Json}
    (hrow : row ∈ table) : Table.find table row.1 = some row.2 := by
  induction table with
  | nil => simp at hrow
  | cons first rest ih =>
    obtain ⟨hfirst, hrest⟩ := pairwise_cons.mp h
    rw [Table.find_cons]
    rcases mem_cons.mp hrow with rfl | hrow
    · rw [if_pos rfl]
    · rw [if_neg (hfirst row hrow).ne, ih hrest hrow]

theorem mem_of_find {table : Table String Json} {key : String} {value : Json}
    (h : Table.find table key = some value) : (key, value) ∈ table := by
  obtain ⟨row, hrow, rfl⟩ := Option.map_eq_some_iff.mp h
  have hkey := find?_some hrow
  simp only [decide_eq_true_eq] at hkey
  exact hkey ▸ mem_of_find?_eq_some hrow

theorem values_eq (e : Engine) : e.values.map some = e.recordKeys.map e.get := by
  have hpages : e.pages (e.store.length + 1) none = e.store.filter (isRecord ·.1) :=
    @pages_rest e _ [] _ rfl (Nat.lt_succ_of_le (length_filter_le _ _))
  rw [Engine.values, hpages, Engine.recordKeys]
  simp only [map_append, map_map]
  congr 1
  · refine map_congr_left fun row hrow => ?_
    have hstored := find_of_sorted e.store_sorted (mem_of_mem_filter hrow)
    simp [Engine.get, hstored, Option.or_some]
  · refine map_congr_left fun row hrow => ?_
    simp [Engine.get, find_of_sorted e.changes_sorted (mem_of_mem_filter hrow)]

theorem mem_recordKeys (e : Engine) (key : String) :
    key ∈ e.recordKeys ↔ isRecord key ∧ (e.get key).isSome := by
  simp only [Engine.recordKeys, mem_map, mem_append, mem_filter, Bool.and_eq_true, Engine.get,
    Option.isSome_or, Bool.or_eq_true]
  constructor
  · rintro ⟨row, ⟨hrow, hrecord⟩ | ⟨hrow, hrecord, -⟩, rfl⟩
    · exact ⟨hrecord, .inr (by rw [find_of_sorted e.store_sorted hrow]; rfl)⟩
    · exact ⟨hrecord, .inl (by rw [find_of_sorted e.changes_sorted hrow]; rfl)⟩
  · rintro ⟨hrecord, h⟩
    cases hstored : Table.find e.store key with
    | some value => exact ⟨(key, value), .inl ⟨mem_of_find hstored, hrecord⟩, rfl⟩
    | none =>
      obtain ⟨value, hvalue⟩ := Option.isSome_iff_exists.mp (h.resolve_right (by simp [hstored]))
      exact ⟨(key, value), .inr ⟨mem_of_find hvalue, hrecord, by simp [hstored]⟩, rfl⟩

theorem nodup_recordKeys (e : Engine) : e.recordKeys.Nodup := by
  have hne {table : Table String Json} (h : table.Pairwise (·.1 < ·.1)) (p : String × Json → Bool) :
      (table.filter p).Pairwise (·.1 ≠ ·.1) := (h.filter p).imp fun hlt => hlt.ne
  rw [Engine.recordKeys, Nodup, pairwise_map, pairwise_append]
  refine ⟨hne e.store_sorted _, hne e.changes_sorted _, fun stored hstored changed hchanged heq => ?_⟩
  have hfind := find_of_sorted e.store_sorted (mem_of_mem_filter hstored)
  simp [← heq, hfind] at hchanged

end Scan

section Budget

theorem size_eq (value : Json) : size value = value.bytes := by
  rw [size, Text.bytes, ← weigh_one, weigh_text, bytes]

theorem size_false (records : List Json) (sequence : Nat) :
    size (result records false sequence) = size (result records true sequence) + 1 := by
  have htrue : (bool true).weigh (fun _ => 1) = 4 := by decide
  have hfalse : (bool false).weigh (fun _ => 1) = 5 := by decide
  simp only [size_eq, result, bytes, weigh, fieldsWeight, length_cons] at *
  omega

theorem itemsWeight_append (a b : List Json) : itemsWeight (fun _ => 1) (a ++ b) =
    itemsWeight (fun _ => 1) a + itemsWeight (fun _ => 1) b := by
  induction a with
  | nil => simp [itemsWeight]
  | cons value rest ih => simp [itemsWeight, ih, Nat.add_assoc]

theorem size_append (records : List Json) (candidate : Candidate) (sequence : Nat) :
    size (result records true sequence) < size (result (records ++ [item candidate]) true sequence) := by
  simp only [size_eq, result, item, bytes, weigh, fieldsWeight, length_cons, itemsWeight_append,
    itemsWeight, length_append, commas]
  omega

theorem pack_spec {bytes sequence : Nat} {all records rest : List Json} (hall : records ++ rest = all)
    (hfit : records ≠ [] → size (result records true sequence) ≤ bytes) :
    (∃ n ≤ all.length, pack bytes sequence records rest = .ok (all.take n) ∧
      (0 < n → size (result (all.take n) true sequence) ≤ bytes) ∧
      (n < all.length → 0 < n ∧ bytes < size (result (all.take (n + 1)) true sequence))) ∨
    (pack bytes sequence records rest = .error "result-too-large" ∧ 0 < all.length ∧
      bytes < size (result (all.take 1) true sequence)) := by
  induction rest generalizing records with
  | nil =>
    rw [append_nil] at hall
    subst hall
    refine .inl ⟨records.length, le_rfl, by rw [pack, take_length], fun hpos => ?_, fun h => absurd h (lt_irrefl _)⟩
    rw [take_length]
    exact hfit (length_pos_iff.mp hpos)
  | cons next rest ih =>
    subst hall
    have hnext : (records ++ next :: rest).take (records.length + 1) = records ++ [next] :=
      take_length_add_append 1
    rw [pack]
    split
    · next hover =>
      by_cases hnil : records = []
      · subst hnil
        exact .inr ⟨rfl, by simp, hover⟩
      · have hpos := length_pos_iff.mpr hnil
        refine .inl ⟨records.length, by simp, by simp [hnil], fun _ => by simpa using hfit hnil, fun _ => ⟨hpos, ?_⟩⟩
        rwa [hnext]
    · next hover => exact ih (by simp) fun _ => not_lt.mp hover

variable (ranked : List Candidate) (limit bytes sequence : Nat)

def answer (n : Nat) : Json := result ((ranked.map item).take n) (n < ranked.length) sequence

/-- The first `n` records may be the answer: one at least if there is one to give. -/
def Fits (n : Nat) : Prop :=
  n ≤ min limit ranked.length ∧ (0 < min limit ranked.length → 0 < n) ∧ size (answer ranked sequence n) ≤ bytes

def LongestFitting (got : Except String Json) : Prop :=
  (∃ n, Fits ranked limit bytes sequence n ∧ (∀ k, Fits ranked limit bytes sequence k → k ≤ n) ∧
    got = .ok (answer ranked sequence n)) ∨
  (∀ n, ¬ Fits ranked limit bytes sequence n) ∧ got = .error "result-too-large"

def trial (n : Nat) : Nat := size (result ((ranked.map item).take n) true sequence)

theorem trial_lt {n : Nat} (h : n < ranked.length) : trial ranked sequence n < trial ranked sequence (n + 1) := by
  rw [trial, trial, take_add_one, getElem?_map, getElem?_eq_getElem h]
  exact size_append _ _ _

theorem trial_monotone : Monotone (trial ranked sequence) := by
  refine monotone_nat_of_le_succ fun n => ?_
  by_cases h : n < ranked.length
  · exact (trial_lt ranked sequence h).le
  · rw [trial, trial, take_of_length_le (by simp; omega), take_of_length_le (by simp; omega)]

theorem size_answer (n : Nat) :
    size (answer ranked sequence n) = trial ranked sequence n + if n < ranked.length then 0 else 1 := by
  unfold answer trial
  split
  · next h => simp [h]
  · next h => simp [h, size_false]

theorem emit_longest_iff : LongestFitting ranked limit bytes sequence (emit ranked limit bytes sequence) ↔
    ¬ (2 ≤ ranked.length ∧ ranked.length ≤ limit ∧ trial ranked sequence ranked.length = bytes) := by
  have hmono {n k : Nat} (h : n ≤ k) := trial_monotone ranked sequence h
  have hsize := size_answer ranked sequence
  have hlength : ((ranked.map item).take limit).length = min limit ranked.length := by simp
  have htake {n : Nat} (h : n ≤ limit) : ((ranked.map item).take limit).take n = (ranked.map item).take n := by
    rw [take_take, min_eq_left h]
  rcases pack_spec (nil_append ((ranked.map item).take limit)) (absurd rfl) with
    ⟨n, hn, hpack, hfit, hover⟩ | ⟨hpack, hpos, hover⟩
  · rw [hlength] at hn hover
    rw [htake (by omega)] at hpack hfit
    have hrecords : ((ranked.map item).take n).length = n := by simp; omega
    have hemit : emit ranked limit bytes sequence = bounded (answer ranked sequence n) bytes := by
      rw [emit, hpack]
      simp [bind, Except.bind, hrecords, answer]
    rw [hemit, bounded]
    have hnext {k : Nat} (hk : n < k) (hmost : k ≤ min limit ranked.length) : bytes < trial ranked sequence k := by
      have hstop := (hover (by omega)).2
      rw [htake (by omega)] at hstop
      exact hstop.trans_le (hmono hk)
    by_cases hlarge : bytes < size (answer ranked sequence n)
    · rw [if_pos hlarge]
      rw [hsize] at hlarge
      change 0 < n → trial ranked sequence n ≤ bytes at hfit
      by_cases htwo : 2 ≤ ranked.length ∧ ranked.length ≤ limit
      · -- Every record is in, and only the longer `false` is over the budget: one record less fits.
        have hlast : n = ranked.length := by
          by_contra hne
          rw [if_pos (by omega)] at hlarge
          omega
        rw [if_neg (by omega)] at hlarge
        have hless := trial_lt ranked sequence (n := n - 1) (by omega)
        rw [Nat.sub_add_cancel (by omega)] at hless
        refine iff_of_false ?_ (not_not_intro ⟨htwo.1, htwo.2, ?_⟩)
        · rintro (⟨k, -, -, h⟩ | ⟨hnone, -⟩)
          · exact nomatch h
          · refine hnone (n - 1) ⟨by omega, fun _ => by omega, ?_⟩
            rw [hsize, if_pos (by omega)]
            omega
        · rw [← hlast]
          omega
      · refine iff_of_true (.inr ⟨fun k hk => ?_, rfl⟩) fun h => htwo ⟨h.1, h.2.1⟩
        have hsame : k = n := by
          obtain ⟨hmost, hsome, -⟩ := hk
          by_cases hless : n < ranked.length
          · rw [if_pos hless] at hlarge
            omega
          · omega
        have hk := hk.2.2
        rw [hsize, hsame] at hk
        omega
    · rw [if_neg hlarge]
      refine iff_of_true (.inl ⟨n, ⟨hn, fun hpos => ?_, not_lt.mp hlarge⟩, fun k hk => ?_, rfl⟩) ?_
      · by_contra hzero
        exact hzero (hover (by omega)).1
      · by_contra hlonger
        have := hnext (not_le.mp hlonger) hk.1
        have := hk.2.2
        rw [hsize] at this
        omega
      · rintro ⟨-, hall, heq⟩
        rw [hsize] at hlarge
        rcases Nat.lt_or_ge n ranked.length with hless | hless
        · have := hnext hless (by omega)
          omega
        · have hsame : n = ranked.length := by omega
          rw [hsame, if_neg (lt_irrefl _)] at hlarge
          omega
  · rw [emit, hpack]
    rw [hlength] at hpos
    rw [htake (by omega)] at hover
    refine iff_of_true (.inr ⟨fun n hn => ?_, rfl⟩) ?_
    · have hone : trial ranked sequence 1 ≤ trial ranked sequence n := hmono (hn.2.1 hpos)
      have hn := hn.2.2
      rw [hsize] at hn
      change bytes < trial ranked sequence 1 at hover
      omega
    · rintro ⟨htwo, -, heq⟩
      have hone : trial ranked sequence 1 ≤ _ := hmono (by omega : 1 ≤ ranked.length)
      change bytes < trial ranked sequence 1 at hover
      omega

end Budget

section Recall

variable {lib : Library} {e : Engine}

theorem candidates_eq {asked : Arguments} {scope : String} {now : Int}
    (hread : ∀ key value, isRecord key → e.get key = some value → (lib.fromValue value).isSome) :
    e.candidates lib asked scope now = .ok (e.recordKeys.filterMap fun key =>
      ((e.get key).bind lib.fromValue).bind (e.matching lib asked scope now)) := by
  have hvalues : ∀ value ∈ e.values, (lib.fromValue value).isSome := by
    intro value hvalue
    have hmem : some value ∈ e.recordKeys.map e.get := values_eq e ▸ mem_map_of_mem hvalue
    obtain ⟨key, hkey, hget⟩ := mem_map.mp hmem
    exact hread key value ((mem_recordKeys e key).mp hkey).1 hget
  have hall {values : List Json} (h : ∀ value ∈ values, (lib.fromValue value).isSome) :
      values.mapM (e.candidate lib asked scope now) =
        .ok (values.map fun value => (lib.fromValue value).bind (e.matching lib asked scope now)) := by
    induction values with
    | nil => rfl
    | cons value rest ih =>
      obtain ⟨stored, hstored⟩ := Option.isSome_iff_exists.mp (h value mem_cons_self)
      rw [mapM_cons, ih fun value hvalue => h value (mem_cons_of_mem _ hvalue), Engine.candidate, hstored]
      simp [hstored, bind, Except.bind, pure, Except.pure]
  have hkeys : e.recordKeys.filterMap (fun key => ((e.get key).bind lib.fromValue).bind (e.matching lib asked scope now)) =
      e.values.filterMap fun value => (lib.fromValue value).bind (e.matching lib asked scope now) := by
    have hmap := congrArg (filterMap fun value : Option Json =>
      (value.bind lib.fromValue).bind (e.matching lib asked scope now)) (values_eq e)
    rw [filterMap_map, filterMap_map] at hmap
    exact hmap.symm
  rw [Engine.candidates, hall hvalues, hkeys]
  simp [bind, Except.bind, pure, Except.pure, filterMap_map]

instance : Std.TransCmp rank :=
  have _ : Std.TransCmp fun a b : Candidate => compare b.2.length a.2.length :=
    @Std.TransCmp.opposite _ (compareOn fun c : Candidate => c.2.length) _
  have _ : Std.TransCmp fun a b : Candidate => compare b.1.createdAtMs a.1.createdAtMs :=
    @Std.TransCmp.opposite _ (compareOn fun c : Candidate => c.1.createdAtMs) _
  have _ : Std.TransCmp fun a b : Candidate => compare a.1.id b.1.id :=
    inferInstanceAs (Std.TransCmp (compareOn fun c : Candidate => c.1.id))
  inferInstanceAs (Std.TransCmp (compareLex _ _))

instance : IsTrans Candidate Before := ⟨fun _ _ _ => Std.TransCmp.isLE_trans⟩

instance : Std.Total Before := by
  refine ⟨fun a b => ?_⟩
  have hswap : rank b a = (rank a b).swap := Std.OrientedCmp.eq_swap
  rw [Before, Before, hswap]
  cases rank a b <;> decide

/-- The records that match are ranked as they should be, and the answer is the longest run of them
that fits, unless all of two or more of them meet the budget exactly in the trial. -/
theorem recall_longest_fitting (lib : Library) (e : Engine) (args : Json) (scope : String) (now : Int) (sequence : Nat)
    {asked : Arguments} (hasked : e.arguments lib args = .ok asked)
    (hread : ∀ key value, isRecord key → e.get key = some value → (lib.fromValue value).isSome) :
    ∃ (keys : List String) (ranked : List Candidate),
      keys.Nodup ∧ (∀ key, key ∈ keys ↔ isRecord key ∧ (e.get key).isSome) ∧
      ranked.Perm (keys.filterMap fun key =>
        ((e.get key).bind lib.fromValue).bind (e.matching lib asked scope now)) ∧
      ranked.Pairwise Before ∧
      (LongestFitting ranked asked.limit asked.bytes sequence (e.recallRecords lib args scope now sequence) ↔
        ¬ (2 ≤ ranked.length ∧ ranked.length ≤ asked.limit ∧ trial ranked sequence ranked.length = asked.bytes)) := by
  have hfound : e.candidates lib asked scope now = _ := candidates_eq hread
  refine ⟨e.recordKeys, _, nodup_recordKeys e, mem_recordKeys e, perm_insertionSort _ _,
    pairwise_insertionSort _ _, ?_⟩
  rw [← emit_longest_iff, Engine.recallRecords, hasked]
  simp only [bind, Except.bind, hfound]

namespace Sample

def strings (value : Json) : Option (List String) := value.asArray.bind (·.mapM asStr)

def readRecord (value : Json) : Option Record := do
  return ⟨← value.getStr "id", ← value.getStr "kind", ← value.getStr "content", ← value.getStr "scope",
    ← strings (value.index "sources"), ← value.getStr "basis", ← (value.index "createdAtMs").asI64,
    (value.index "supersedes").asStr, (value.index "expiresAtMs").asI64⟩

def library : Library where
  fromValue value := do
    return ⟨← readRecord (value.index "record"), ← value.getStr "root", ← strings (value.index "terms")⟩
  hash value := value.asStr.getD ""
  terms text := [text]

def record (id : String) : Record := ⟨id, "fact", "tea", "me", [], "user", 0, none, none⟩

def stored (id : String) : Json :=
  .object [("record", (record id).json), ("root", .string id), ("terms", .array [.string "tea"])]

example (id : String) : library.fromValue (stored id) = some ⟨record id, id, ["tea"]⟩ := rfl

def engine : Engine where
  store := [("head/a", .string "a"), ("head/b", .string "b"), ("record/a", stored "a"), ("record/b", stored "b")]
  changes := []
  config := ⟨16384, 20⟩
  store_sorted := by decide +kernel
  changes_sorted := .nil

theorem engine_reads {key : String} {value : Json} (hkey : isRecord key) (hget : engine.get key = some value) :
    (library.fromValue value).isSome := by
  have hall : ∀ row ∈ engine.store, isRecord row.1 → (library.fromValue row.2).isSome := by decide +kernel
  obtain ⟨row, hrow, rfl⟩ := Option.map_eq_some_iff.mp hget
  have hname : row.1 = key := by simpa using find?_some hrow
  exact hall row (mem_of_find?_eq_some hrow) (hname ▸ hkey)

def args (bytes : Nat) : Json := .object [("maxBytes", .ofNat bytes), ("query", .string "tea")]

end Sample

theorem recall_longest_fitting_sample : ∃ (keys : List String) (ranked : List Candidate),
    keys.Nodup ∧ (∀ key, key ∈ keys ↔ isRecord key ∧ (Sample.engine.get key).isSome) ∧ ranked.Pairwise Before ∧
      (LongestFitting ranked 8 384 7 (Sample.engine.recallRecords Sample.library (Sample.args 384) "me" 1 7) ↔
        ¬ (2 ≤ ranked.length ∧ ranked.length ≤ 8 ∧ trial ranked 7 ranked.length = 384)) := by
  have hasked : Sample.engine.arguments Sample.library (Sample.args 384) = .ok ⟨["tea"], 8, 384, []⟩ := by
    decide +kernel
  obtain ⟨keys, ranked, hnodup, hkeys, -, hsorted, hiff⟩ := recall_longest_fitting Sample.library Sample.engine
    (Sample.args 384) "me" 1 7 hasked fun _ _ => Sample.engine_reads
  exact ⟨keys, ranked, hnodup, hkeys, hsorted, hiff⟩

/-- Both records together meet 385 bytes in the trial, and the answer is refused; one byte less
and the first record is the answer. -/
theorem exact_budget_refused :
    Sample.engine.recallRecords Sample.library (Sample.args 385) "me" 1 7 = .error "result-too-large" ∧
      (Sample.engine.recallRecords Sample.library (Sample.args 384) "me" 1 7).isOk := by
  decide +kernel

end Recall

end Pluribus.Memory
