import Mathlib.Data.Finset.Card
import Mathlib.Data.List.DropRight
import Gntp.Action
import Gntp.Proofs.HeaderText

/-!
# The history of a block of headers

Calls on a block come one after the other, and a line that is no header is passed over
(`Headers.performEach`). What the block holds is what was set since it was last cleared
(`Headers.settings`): every key once, in the order in which the keys first came, with the value that
was set last (`Headers.performEach_collects`).
-/

namespace Gntp.Headers

open Gntp.Action

/-- A call on a block of headers. -/
inductive Call where
  | set (key value : Bytes)
  | parse (line : Bytes)
  | clear
  deriving DecidableEq

/-- The header that a call sets, if it sets one. -/
def Call.header? : Call → Option (Bytes × Bytes)
  | set key value => some (key, value)
  | parse line => (parseLine line).toOption
  | clear => none

/-- Performs a call, and returns the header that was read from a line. -/
def perform : Call → Action Headers (Option (Bytes × Bytes))
  | .set key value => do
    modify fun h => h.set key value
    return none
  | .parse line => do
    let (header, h) ← check ((← get).record line)
    modify fun _ => h
    return some header
  | .clear => do
    modify fun _ => {}
    return none

/-- Performs calls one after the other. One that fails is passed over. -/
def performEach (h : Headers) (calls : List Call) : Headers :=
  calls.foldl (fun h call => (perform call).final h) h

/-- The headers that were set since the block was last cleared, the first one first. -/
def settings (calls : List Call) : List (Bytes × Bytes) :=
  (calls.rtakeWhile fun call => call ≠ .clear).filterMap Call.header?

variable {h h' : Headers} {calls : List Call} {line key value : Bytes}
  {entries : List (Bytes × Bytes)}

/-! ## One call -/

theorem perform_parse_of_header (hsaid : Says line key value) :
    perform (.parse line) h = .ok (some (key, value)) (h.set key value) := by
  have hrecord : h.record line = .ok ((key, value), h.set key value) := by
    rw [record, parseLine_iff.2 hsaid]
    rfl
  have hcheck : check (h.record line) h = .ok ((key, value), h.set key value) h :=
    check_eq_ok.2 ⟨hrecord, rfl⟩
  exact (bind_of_ok (x := get) rfl).trans (bind_of_ok hcheck)

/-- A line that says no header changes nothing. -/
theorem perform_parse_of_no_header (hnot : ¬ ∃ key value, Says line key value) :
    perform (.parse line) h = .error (.rejected (fault line)) h := by
  have hrecord : h.record line = .error (fault line) := by
    rw [record, parseLine_of_no_header hnot]
    rfl
  have hcheck : check (h.record line) h = .error (.rejected (fault line)) h :=
    check_eq_error.2 ⟨_, hrecord, rfl, rfl⟩
  exact (bind_of_ok (x := get) rfl).trans (bind_of_error hcheck)

theorem perform_parse_eq_ok {header : Option (Bytes × Bytes)} :
    perform (.parse line) h = .ok header h' ↔
      ∃ key value, Says line key value ∧ header = some (key, value) ∧ h' = h.set key value := by
  constructor
  · intro hperform
    by_cases hsaid : ∃ key value, Says line key value
    · obtain ⟨key, value, hsaid⟩ := hsaid
      cases (perform_parse_of_header hsaid).symm.trans hperform
      exact ⟨key, value, hsaid, rfl, rfl⟩
    · cases (perform_parse_of_no_header hsaid).symm.trans hperform
  · rintro ⟨key, value, hsaid, rfl, rfl⟩
    exact perform_parse_of_header hsaid

/-! ## Headers set one after the other -/

theorem ofList_append_singleton : ofList (entries ++ [(key, value)]) =
    (ofList entries).set key value := by
  rw [ofList, List.foldl_append, ← ofList, List.foldl_cons, List.foldl_nil]

/-- Every key stands where it came first. -/
theorem keys_ofList (entries : List (Bytes × Bytes)) :
    (ofList entries).entries.map Prod.fst = (entries.map Prod.fst).eraseDups := by
  induction entries using List.reverseRecOn with
  | nil => rfl
  | append_singleton entries entry ih =>
    obtain ⟨key, value⟩ := entry
    rw [ofList_append_singleton, List.map_append, List.eraseDups_append, ← ih]
    by_cases hmem : key ∈ entries.map Prod.fst
    · have hthere : key ∈ (ofList entries).entries.map Prod.fst := by
        rwa [ih, List.mem_eraseDups]
      have hnone : [key].removeAll (entries.map Prod.fst) = [] := by
        simp [List.removeAll, hmem]
      rw [set, Assoc.keys_set_of_mem hthere, List.map_singleton, hnone, List.eraseDups_nil,
        List.append_nil]
    · have hnew : key ∉ (ofList entries).entries.map Prod.fst := by
        rwa [ih, List.mem_eraseDups]
      have hone : [key].removeAll (entries.map Prod.fst) = [key] := by
        simp [List.removeAll, hmem]
      rw [set, Assoc.set_of_notMem hnew, List.map_append, List.map_singleton]
      dsimp only
      rw [hone]
      rfl

theorem nodup_keys_ofList (entries : List (Bytes × Bytes)) :
    ((ofList entries).entries.map Prod.fst).Nodup := by
  induction entries using List.reverseRecOn with
  | nil => exact List.nodup_nil
  | append_singleton entries entry ih =>
    rw [ofList_append_singleton]
    exact Assoc.nodup_keys_set ih _ _

/-- The value of a key is the one that was set last. -/
theorem get?_ofList (entries : List (Bytes × Bytes)) (key : Bytes) :
    (ofList entries).get? key = entries.reverse.lookup key := by
  induction entries using List.reverseRecOn with
  | nil => rfl
  | append_singleton entries entry ih =>
    obtain ⟨last, value⟩ := entry
    rw [ofList_append_singleton, List.reverse_append, List.reverse_singleton,
      List.singleton_append, List.lookup_cons, get?, set]
    split
    · next hkey =>
      rw [eq_of_beq hkey, Assoc.lookup_set_self]
    · next hkey =>
      rw [Assoc.lookup_set_of_ne (ne_of_beq_false hkey)]
      exact ih

/-! ## Histories -/

theorem performEach_append_singleton (h : Headers) (calls : List Call) (call : Call) :
    performEach h (calls ++ [call]) = (perform call).final (performEach h calls) := by
  simp only [performEach, List.foldl_append, List.foldl_cons, List.foldl_nil]

theorem settings_clear (calls : List Call) : settings (calls ++ [.clear]) = [] := by
  rw [settings, List.rtakeWhile_concat_neg _ _ _ (by simp), List.filterMap_nil]

theorem settings_append_singleton (call : Call) (hne : call ≠ .clear) :
    settings (calls ++ [call]) = settings calls ++ call.header?.toList := by
  rw [settings, List.rtakeWhile_concat_pos _ _ _ (by simpa using hne), List.filterMap_append,
    ← settings]
  cases hheader : call.header? <;> simp [hheader]

/-- A block is what was set since it was last cleared. -/
theorem performEach_eq (calls : List Call) : performEach {} calls = ofList (settings calls) := by
  induction calls using List.reverseRecOn with
  | nil => rfl
  | append_singleton calls call ih =>
    rw [performEach_append_singleton, ih]
    cases call with
    | clear =>
      rw [settings_clear]
      rfl
    | set key value =>
      rw [settings_append_singleton (.set key value) nofun]
      exact ofList_append_singleton.symm
    | parse line =>
      rw [settings_append_singleton (.parse line) nofun, Call.header?]
      by_cases hsaid : ∃ key value, Says line key value
      · obtain ⟨key, value, hsaid⟩ := hsaid
        rw [final_of_ok (perform_parse_of_header hsaid), parseLine_iff.2 hsaid]
        exact ofList_append_singleton.symm
      · rw [final_of_error (perform_parse_of_no_header hsaid), parseLine_of_no_header hsaid]
        exact congrArg ofList (List.append_nil _).symm

/-- The key was set to this value, and was not set again. -/
def LastSet (entries : List (Bytes × Bytes)) (key value : Bytes) : Prop :=
  ∃ earlier later, entries = earlier ++ (key, value) :: later ∧ key ∉ later.map Prod.fst

theorem lastSet_iff : LastSet entries key value ↔ entries.reverse.lookup key = some value := by
  rw [List.lookup_eq_some_iff]
  constructor
  · rintro ⟨earlier, later, rfl, hlater⟩
    refine ⟨later.reverse, earlier.reverse, by simp, fun entry hentry => ?_⟩
    rw [bne_iff_ne]
    rintro rfl
    exact hlater (List.mem_map_of_mem (List.mem_reverse.1 hentry))
  · rintro ⟨later, earlier, hreverse, hlater⟩
    refine ⟨earlier.reverse, later.reverse, ?_, fun hmem => ?_⟩
    · rw [← List.reverse_reverse entries, hreverse]
      simp
    · obtain ⟨entry, hentry, rfl⟩ := List.mem_map.1 hmem
      exact bne_iff_ne.1 (hlater entry (List.mem_reverse.1 hentry)) rfl

theorem get?_eq_none_iff : (ofList entries).get? key = none ↔ key ∉ entries.map Prod.fst := by
  rw [get?_ofList, ← Option.not_isSome_iff_eq_none, ← Assoc.mem_keys_iff_lookup, List.map_reverse,
    List.mem_reverse]

/-- What there is to say of a block of headers that a history of calls has led to. -/
structure Collects (calls : List Call) (h : Headers) : Prop where
  keys_nodup : (h.entries.map Prod.fst).Nodup
  /-- The keys stand in the order in which each of them was first set. -/
  keys_ordered : h.entries.map Prod.fst = ((settings calls).map Prod.fst).eraseDups
  get?_iff : ∀ {key value}, h.get? key = some value ↔ LastSet (settings calls) key value
  get?_none : ∀ {key}, h.get? key = none ↔ key ∉ (settings calls).map Prod.fst
  getD_set : ∀ {key value}, LastSet (settings calls) key value →
    ∀ fallback, h.getD key fallback = value
  getD_unset : ∀ {key}, key ∉ (settings calls).map Prod.fst →
    ∀ fallback, h.getD key fallback = fallback
  contains_iff : ∀ {key}, h.contains key = true ↔ key ∈ (settings calls).map Prod.fst
  size_eq : h.size = ((settings calls).map Prod.fst).toFinset.card
  isEmpty_iff : h.isEmpty = true ↔ settings calls = []
  /-- A line that says a header is read, and sets it. -/
  parse_iff : ∀ {line key value h'}, perform (.parse line) h = .ok (some (key, value)) h' ↔
    Says line key value ∧ h' = h.set key value
  /-- All it takes is a colon that does not come first. -/
  parse_accepts : ∀ {line}, 0x3a ∈ line → line.head? ≠ some 0x3a →
    ∃ key value, Says line key value
  parse_refuses : ∀ {line}, ¬ (0x3a ∈ line ∧ line.head? ≠ some 0x3a) →
    perform (.parse line) h = .error (.rejected (fault line)) h ∧
      (fault line).code = .invalidRequest

/-- Whatever was set, read and cleared, in whatever order. -/
theorem performEach_collects (calls : List Call) : Collects calls (performEach {} calls) := by
  have hget {key value : Bytes} : (performEach {} calls).get? key = some value ↔
      LastSet (settings calls) key value := by
    rw [performEach_eq, get?_ofList, lastSet_iff]
  have hnone {key : Bytes} : (performEach {} calls).get? key = none ↔
      key ∉ (settings calls).map Prod.fst := by
    rw [performEach_eq, get?_eq_none_iff]
  have hkeys : (performEach {} calls).entries.map Prod.fst =
      ((settings calls).map Prod.fst).eraseDups := by
    rw [performEach_eq, keys_ofList]
  have hnodup : ((performEach {} calls).entries.map Prod.fst).Nodup := by
    rw [performEach_eq]
    exact nodup_keys_ofList _
  refine {
    keys_nodup := hnodup
    keys_ordered := hkeys
    get?_iff := hget
    get?_none := hnone
    getD_set := fun hlast fallback => by rw [getD, hget.2 hlast, Option.getD_some]
    getD_unset := fun hmem fallback => by rw [getD, hnone.2 hmem, Option.getD_none]
    contains_iff := ?_
    size_eq := ?_
    isEmpty_iff := ?_
    parse_iff := ?_
    parse_accepts := fun hmem hfirst => exists_header_iff.2 ⟨hmem, hfirst⟩
    parse_refuses := fun hnot => ⟨perform_parse_of_no_header (mt exists_header_iff.1 hnot), ?_⟩ }
  · intro key
    rw [contains, Option.isSome_iff_ne_none, ne_eq, hnone, not_not]
  · have hsame : ((settings calls).map Prod.fst).toFinset =
        ((performEach {} calls).entries.map Prod.fst).toFinset := by
      ext key
      rw [hkeys, List.mem_toFinset, List.mem_toFinset, List.mem_eraseDups]
    rw [hsame, List.toFinset_card_of_nodup hnodup, List.length_map, size]
  · rw [isEmpty, List.isEmpty_iff, ← List.map_eq_nil_iff, hkeys]
    cases settings calls with
    | nil => simp
    | cons setting settings => simp [List.eraseDups_cons]
  · intro line key value h'
    rw [perform_parse_eq_ok]
    constructor
    · rintro ⟨_, _, hsaid, hheader, rfl⟩
      cases hheader
      exact ⟨hsaid, rfl⟩
    · rintro ⟨hsaid, rfl⟩
      exact ⟨key, value, hsaid, rfl, rfl⟩
  · unfold fault
    split <;> rfl

/-- A key that is set again keeps its place, and only the first colon ends a key. -/
example : (performEach {} [.set (ascii "a") (ascii "1"), .parse (ascii "b: 2 "),
    .parse (ascii ": 3"), .parse (ascii "a: x:y")]).entries =
      [(ascii "a", ascii "x:y"), (ascii "b", ascii "2")] := by decide +kernel

end Gntp.Headers
