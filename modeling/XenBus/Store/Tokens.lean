import XenBus.Foundations.Hexadecimal
import XenBus.Store.Consumers
import XenBus.Store.WatchIds

/-!
# The token of a watch

`StoreWatchAdd` tells the backend of a watch with its path and a token that has the caller and the id of the
watch in it, and the backend puts both into each of the watch's events. `StoreParseWatchEvent` takes them out
again: it finds the token behind the first `NUL` of the payload and checks that the length of the payload
fits it, and it parses the numbers with functions that also take shorter ones, and spaces, signs and
prefixes in front of them.

`token_round_trip` has both directions: what `StoreWatchAdd` has printed is read back as it was, and what
`StoreParseWatchEvent` takes the caller and the id from is a token that has them in it (`ParsesTo`).
-/

namespace XenBus.Store.Tokens

open CString Operations Consumers WatchIds

variable {x86 : Bool} {Data Path rest : List UInt8} {Caller Id : ℕ}

/-! ## What is sent -/

/-- `RtlStringCbPrintfA`, with the bytes that the format makes: it fails if they do not fit with a `NUL`. -/
def rtlStringCbPrintf (cbDest : ℕ) (text : List UInt8) : Option (List UInt8) :=
  if text.length < cbDest then some text else none

/-- `Path` in `StoreWatchAdd`. -/
def printPath (Prefix : Option (List UInt8)) (Node : List UInt8) : Option (List UInt8) :=
  match Prefix with
  | none => rtlStringCbPrintf (Node.length + 1) Node
  | some Prefix => rtlStringCbPrintf (Prefix.length + 1 + Node.length + 1) (Prefix ++ [47] ++ Node)

/-- `Token` in `StoreWatchAdd`, where pointers have 16 digits. -/
def printToken (Watch : Watch) : Option (List UInt8) :=
  (rtlStringCbPrintf (tokenLength false) Watch.Token).filter fun Token =>
    Token.length = tokenLength false - 1

/-- The path and the token in the request of `StoreWatchAdd`, with `Caller` and `Id` of the watch. There is
none if the path is too long, and none either if an assertion fails. -/
def storeWatchAdd (Prefix : Option (List UInt8)) (Node : List UInt8) (Caller Id : ℕ) :
    Option (List UInt8 × List UInt8) := do
  if !storeCheckPathLength Prefix Node then none
  let Path ← printPath Prefix Node
  let Token ← printToken ⟨Caller, Id, Path, true⟩
  return (Path, Token)

/-- The payload of an event of the watch. -/
def eventPayload (Path Token : List UInt8) : List UInt8 := Path ++ 0 :: (Token ++ [0])

/-- The token has the caller and the id in it: these are the values of two texts, each of which is a number
up to its end. -/
structure ParsesTo (x86 : Bool) (token : List UInt8) (Caller Id : ℕ) : Prop where
  nul : 0 ∉ token
  parts : ∃ caller id v w, token = preAmble ++ (caller ++ 124 :: id) ∧
    strtoul 18446744073709551615 16 (caller ++ [0]) = some (v, [0]) ∧ Caller = v % pointerRange x86 ∧
    strtoul 4294967295 16 (id ++ [0]) = some (w, [0]) ∧ Id = w % 65536

theorem storeWatchAdd_eq {Prefix : Option (List UInt8)} {Node : List UInt8}
    (h : storeCheckPathLength Prefix Node = true) (Caller Id : ℕ) :
    storeWatchAdd Prefix Node Caller Id =
      some (watchPath Prefix Node, (⟨Caller, Id, watchPath Prefix Node, true⟩ : Watch).Token) := by
  have hpath : printPath Prefix Node = some (watchPath Prefix Node) := by
    cases Prefix with
    | none => exact if_pos (Nat.lt_succ_self _)
    | some Prefix =>
      refine if_pos ?_
      simp only [List.length_append, List.length_singleton]
      omega
  have htoken : ∀ watch : Watch, printToken watch = some watch.Token := by
    intro watch
    have hlength := watch.length_token
    rw [printToken, rtlStringCbPrintf, if_pos (by rw [hlength]; decide), Option.filter_some, hlength]
    rfl
  simp [storeWatchAdd, h, hpath, htoken]

/-! ## What is received -/

theorem scanPath_append (hPath : 0 ∉ Path) (rest : List UInt8) :
    scanPath (Path ++ 0 :: rest) (Path ++ 0 :: rest).length = some (0 :: rest, rest.length + 1) := by
  induction Path with
  | nil => exact if_neg fun hne => hne.1 rfl
  | cons b bs ih =>
    obtain ⟨hb, hbs⟩ := not_or.mp (List.mem_cons.not.mp hPath)
    rw [List.cons_append, scanPath, if_pos ⟨Ne.symm hb, by simp⟩, List.length_cons, Nat.add_sub_cancel]
    exact ih hbs

/-- The payload is parsed if it is as long as the path and a token, ends with a `NUL`, and has the pre-amble
behind its first one. -/
theorem storeParseWatchEvent_append (hPath : 0 ∉ Path) {v : ℕ × ℕ} :
    storeParseWatchEvent x86 (Path ++ 0 :: rest) = some (some v) ↔
      rest.length = tokenLength x86 ∧ rest[tokenLength x86 - 1]? = some 0 ∧
        ∃ numbers, rest = preAmble ++ numbers ∧ parseToken x86 numbers = some (some v) := by
  simp only [storeParseWatchEvent, Option.bind_eq_bind, scanPath_append hPath, Option.bind_some,
    List.tail_cons]
  by_cases hlength : rest.length = tokenLength x86
  · rw [if_neg (not_ne_iff.mpr (by rw [hlength])), and_iff_right hlength]
    have hpre := strncmp_eq_true (l := rest) (s := preAmble) (by decide)
    constructor
    · intro h
      obtain ⟨last, hlast, h⟩ := Option.bind_eq_some_iff.mp h
      split_ifs at h with hnul
      · cases h
      · obtain ⟨matched, hmatch, h⟩ := Option.bind_eq_some_iff.mp h
        cases matched with
        | false =>
          obtain ⟨_, -, h⟩ := Option.bind_eq_some_iff.mp h
          cases h
        | true =>
          obtain ⟨numbers, rfl⟩ := hpre.mp hmatch
          exact ⟨by rw [hlast, not_ne_iff.mp hnul], numbers, rfl, h⟩
    · rintro ⟨hlast, numbers, rfl, hparse⟩
      rw [hlast, Option.bind_some, if_neg (by simp), show (4 : ℕ) = preAmble.length from rfl,
        hpre.mpr (List.prefix_append _ _), Option.bind_some]
      exact hparse
  · exact iff_of_false (by rw [if_pos fun heq => hlength (Nat.succ.inj heq)]; simp) fun h => hlength h.1

/-- What `StoreParseWatchEvent` takes its numbers from is a token. -/
theorem token_of_parseToken {numbers : List UInt8} (h : parseToken x86 numbers = some (some (Caller, Id))) :
    ∃ token tail, preAmble ++ numbers = token ++ 0 :: tail ∧ ParsesTo x86 token Caller Id := by
  obtain ⟨⟨v, End⟩, hv, h⟩ := Option.bind_eq_some_iff.mp h
  obtain ⟨c, hc, h⟩ := Option.bind_eq_some_iff.mp h
  have hbar : c = 124 := by
    by_contra hne
    rw [if_pos hne] at h
    cases h
  rw [if_neg (not_ne_iff.mpr hbar)] at h
  obtain ⟨⟨w, End'⟩, hw, h⟩ := Option.bind_eq_some_iff.mp h
  obtain ⟨c', hc', h⟩ := Option.bind_eq_some_iff.mp h
  have hnul : c' = 0 := by
    by_contra hne
    rw [if_pos hne] at h
    cases h
  rw [if_neg (not_ne_iff.mpr hnul)] at h
  obtain ⟨rfl, rfl⟩ := Prod.mk.inj (Option.some.inj (Option.some.inj h))
  obtain ⟨caller, rfl, hcaller, hreads⟩ := strtoul_reads hv
  obtain ⟨after, rfl⟩ := List.head?_eq_some_iff.mp hc
  obtain ⟨id, hid, hid0, hreads'⟩ := strtoul_reads hw
  obtain ⟨tail, rfl⟩ := List.head?_eq_some_iff.mp hc'
  subst hbar hnul
  rw [List.tail_cons] at hid
  refine ⟨preAmble ++ (caller ++ 124 :: id), tail, by simp [hid], ?_, caller, id, v, w, rfl, hreads, rfl,
    hreads', rfl⟩
  simp only [List.mem_append, List.mem_cons, not_or]
  exact ⟨by decide, hcaller, by decide, hid0⟩

theorem parseToken_hex (hCaller : Caller < 18446744073709551616) (hId : Id < 65536) :
    parseToken false (CString.hex 16 Caller ++ 124 :: (CString.hex 4 Id ++ [0])) =
      some (some (Caller, Id)) := by
  have hnumber := strtoul_hex 16 18446744073709551615 (b := 124) (by decide) hCaller
    (Nat.le_of_lt_succ hCaller) (by decide) (by decide) (CString.hex 4 Id ++ [0])
  have hnumber' := strtoul_hex 4 4294967295 (b := 0) (by decide) hId (by omega) (by decide) (by decide) []
  simp only [parseToken, Option.bind_eq_bind, hnumber, Option.bind_some, List.head?_cons, List.tail_cons,
    hnumber']
  simp [pointerRange, Nat.mod_eq_of_lt hCaller, Nat.mod_eq_of_lt hId]

/-! ## The round trip -/

/-- **Watch tokens round-trip**: what has been printed for a watch is parsed as its path, caller and id, and
what is parsed is a token that has them in it. -/
theorem token_round_trip :
    (∀ Prefix Node Caller Id, 0 ∉ watchPath Prefix Node → storeCheckPathLength Prefix Node = true →
      Caller < 18446744073709551616 → Id < 65536 → ∃ Path token,
        storeWatchAdd Prefix Node Caller Id = some (Path, token) ∧ Path = watchPath Prefix Node ∧
          token.length = tokenLength false - 1 ∧
          storeParseWatchEvent false (eventPayload Path token) = some (some (Caller, Id)) ∧
          cString (eventPayload Path token) = some Path) ∧
      ∀ x86 Data Caller Id, storeParseWatchEvent x86 Data = some (some (Caller, Id)) →
        ∃ Path token tail, Data = Path ++ 0 :: (token ++ 0 :: tail) ∧ 0 ∉ Path ∧
          cString Data = some Path ∧ ParsesTo x86 token Caller Id := by
  constructor
  · intro Prefix Node Caller Id hnul hlength hCaller hId
    refine ⟨_, _, storeWatchAdd_eq hlength Caller Id, rfl, Watch.length_token _, ?_, cString_append hnul _⟩
    have htoken : ∀ watch : Watch, watch.Token ++ [0] = preAmble ++
        (CString.hex 16 watch.Caller ++ 124 :: (CString.hex 4 watch.Id ++ [0])) := by
      intro watch
      simp [Watch.Token, preAmble]
    refine (storeParseWatchEvent_append hnul).mpr ⟨?_, ?_, _, htoken _, parseToken_hex hCaller hId⟩
    · rw [List.length_append, Watch.length_token]
      rfl
    · rw [List.getElem?_append_right (by rw [Watch.length_token]; decide), Watch.length_token]
      rfl
  · intro x86 Data Caller Id h
    have hnul : 0 ∈ Data := storeParseWatchEvent_isSome.mp (by rw [h]; rfl)
    obtain ⟨Path, rest, rfl, hPath⟩ := List.eq_append_cons_of_mem hnul
    obtain ⟨-, -, numbers, rfl, hparse⟩ := (storeParseWatchEvent_append hPath).mp h
    obtain ⟨token, tail, htoken, hparses⟩ := token_of_parseToken hparse
    exact ⟨Path, token, tail, by rw [htoken], hPath, cString_append hPath _, hparses⟩

/-- A watch with the largest caller and id that there are. -/
theorem token_round_trip_last : ∃ Path token,
    storeWatchAdd (some [47, 97]) [98] 18446744073709551615 65535 = some (Path, token) ∧
      Path = [47, 97, 47, 98] ∧ token.length = 25 ∧
      storeParseWatchEvent false (eventPayload Path token) = some (some (18446744073709551615, 65535)) ∧
      cString (eventPayload Path token) = some Path :=
  token_round_trip.1 (some [47, 97]) [98] 18446744073709551615 65535 (by decide) (by decide) (by decide)
    (by decide)

end XenBus.Store.Tokens
