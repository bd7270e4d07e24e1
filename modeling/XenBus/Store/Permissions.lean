import XenBus.Foundations.BoundedBuffer
import XenBus.Store.WatchIds

/-!
# Setting permissions

`StorePermissionsSet` formats the permissions into a buffer of `XENSTORE_PAYLOAD_MAX` bytes, one after the
other: a letter for the mask, the domain in decimal, and a `NUL`. `Length` is what is left of the buffer.

The letter is stored before anything is compared with the length; the assertion that there is room for it
is not part of the free build. So a permission that comes when the buffer is exactly full is written
beyond it. `permissions_iff` says that this is the only way: otherwise the request, if it is prepared,
has the encodings of the permissions, one after the other.

A write that is not to the buffer has no result.
-/

namespace XenBus.Store.Permissions

open Requests
open BoundedBuffer
open XenBus.Store.WatchIds (storeCheckPathLength watchPath)

/-! ## Data -/

/-- `XENBUS_STORE_PERMISSION`. -/
structure Permission where
  Domain : UInt16
  Mask : UInt32
  deriving DecidableEq

/-- `XENSTORE_PAYLOAD_MAX`. -/
def payloadMax : ℕ := 4096

/-- `XS_SET_PERMS`. -/
def XS_SET_PERMS : ℕ := 14

/-- The letter for a mask: `n`, `r`, `w` or `b`. -/
def letter (Mask : UInt32) : Option UInt8 :=
  if Mask = 0 then some 110
  else if Mask = 1 then some 114
  else if Mask = 2 then some 119
  else if Mask = 3 then some 98
  else none

/-- `%u`. -/
def decimal (n : ℕ) : List UInt8 := (Nat.toDigits 10 n).map fun c => UInt8.ofNat c.toNat

/-! ## The functions -/

/-- The statuses of the formatting. -/
inductive PrintStatus
  | success
  | invalidParameter
  | bufferOverflow
  deriving DecidableEq

/-- `RtlStringCbPrintfExA` with the text to be written, without flags: the status, the buffer and
`*Remaining`. A text that does not fit is cut off. -/
def rtlStringCbPrintfExA (buffer : List UInt8) (Dest cbDest : ℕ) (text : List UInt8) :
    Option (PrintStatus × List UInt8 × ℕ) :=
  if cbDest = 0 ∨ 2147483647 < cbDest then some (.invalidParameter, buffer, 0)
  else if text.length < cbDest then
    (write buffer Dest (text ++ [0])).map fun buffer => (.success, buffer, cbDest - text.length)
  else
    (write buffer Dest (text.take (cbDest - 1) ++ [0])).map fun buffer => (.bufferOverflow, buffer, 1)

/-- `StorePermissionToString`, which writes from the position `Buffer` on: the status, the buffer and
`*UsedSize`. -/
def storePermissionToString (permission : Permission) (buffer : List UInt8) (Buffer BufferSize : ℕ) :
    Option (PrintStatus × List UInt8 × ℕ) :=
  match letter permission.Mask with
  | none => some (.invalidParameter, buffer, 0)
  | some c =>
    (write buffer Buffer [c]).bind fun buffer =>
      (rtlStringCbPrintfExA buffer (Buffer + 1) ((BufferSize + 4294967295) % 4294967296)
        (decimal permission.Domain.toNat)).map fun (status, buffer, Remaining) =>
          (status, buffer, (BufferSize + (4294967296 - Remaining) + 1) % 4294967296)

/-- The loop of `StorePermissionsSet`: the status, the buffer and `Length`. -/
def formatPermissions : List Permission → List UInt8 → ℕ → ℕ → Option (PrintStatus × List UInt8 × ℕ)
  | [], buffer, _, Length => some (.success, buffer, Length)
  | permission :: Permissions, buffer, Segment, Length =>
    match storePermissionToString permission buffer Segment Length with
    | none => none
    | some (status, buffer, Used) =>
      if status = .success then
        formatPermissions Permissions buffer (Segment + Used) ((Length + (4294967296 - Used)) % 4294967296)
      else some (status, buffer, Length)

/-- How `StorePermissionsSet` goes on after `StorePrepareRequest`, or where it has failed before. -/
inductive Outcome
  /-- `StoreCheckPathLength` has failed. -/
  | refused
  | noMemory
  /-- A permission could not be formatted. -/
  | unformatted (status : PrintStatus)
  | unprepared
  | prepared (Request : Requests.Request)

/-- `StorePermissionsSet` up to `StorePrepareRequest`, with the outcomes of its allocations. -/
def storePermissionsSet (RequestId : ℕ) (transaction : Option Transaction) (Prefix : Option (List UInt8))
    (Node : List UInt8) (string path : Bool) (Permissions : List Permission) : Option Outcome :=
  if !storeCheckPathLength Prefix Node then some .refused
  else if !string || !path then some .noMemory
  else
    (formatPermissions Permissions (List.replicate payloadMax 0) 0 payloadMax).map
      fun (status, PermissionString, Length) =>
        if status = .success then
          match (storePrepareRequest RequestId transaction XS_SET_PERMS
            [watchPath Prefix Node, [0], PermissionString.take (payloadMax - Length)]).1 with
          | none => .unprepared
          | some Request => .prepared Request
        else .unformatted status

/-! ## What is expected -/

/-- The encoding of a permission with a valid mask. -/
def entry (permission : Permission) : List UInt8 :=
  (letter permission.Mask).toList ++ decimal permission.Domain.toNat ++ [0]

/-- The encodings, one after the other. -/
def encoding (Permissions : List Permission) : List UInt8 := Permissions.flatMap entry

/-- The mask is one of the four. -/
def Permission.Valid (permission : Permission) : Prop := (letter permission.Mask).isSome

/-- The writes stay in the buffer, and a request that is prepared has the encodings as its permission
segment. -/
def Faithful (Prefix : Option (List UInt8)) (Node : List UInt8) (Permissions : List Permission)
    (outcome : Option Outcome) : Prop :=
  ∃ result, outcome = some result ∧ ∀ Request, result = .prepared Request →
    (∀ permission ∈ Permissions, permission.Valid) ∧
    Request.Segment = [⟨.header, 0, 16⟩, payloadSegment (watchPath Prefix Node), payloadSegment [0],
      ⟨.data (encoding Permissions), 0, (Permissions.map fun p => (entry p).length).sum⟩]

/-- A permission with a valid mask comes when the `n` bytes before it and the encodings fill the buffer
exactly. -/
def OverrunsFrom (n : ℕ) (Permissions : List Permission) : Prop :=
  ∃ done permission rest, Permissions = done ++ permission :: rest ∧ (∀ p ∈ done, p.Valid) ∧
    permission.Valid ∧ n + (encoding done).length = payloadMax

/-- A permission with a valid mask comes when the encodings before it fill the buffer exactly. -/
def Overruns (Permissions : List Permission) : Prop := OverrunsFrom 0 Permissions

/-! ## One permission -/

variable {permission : Permission}

/-- The text and its `NUL` are written if they fit, and the status is success then and only then. -/
theorem printf_spec (buffer : List UInt8) (Dest cbDest : ℕ) (text : List UInt8)
    (hfits : Dest + cbDest ≤ buffer.length) (hbuffer : buffer.length ≤ payloadMax) :
    ∃ status buffer' Remaining, rtlStringCbPrintfExA buffer Dest cbDest text =
        some (status, buffer', Remaining) ∧
      (status = .success ↔ text.length < cbDest) ∧
      (text.length < cbDest → Remaining = cbDest - text.length ∧ buffer'.length = buffer.length ∧
        buffer'.take (Dest + text.length + 1) = buffer.take Dest ++ (text ++ [0])) := by
  have hmax : ¬ 2147483647 < cbDest := by
    unfold payloadMax at hbuffer
    omega
  unfold rtlStringCbPrintfExA
  by_cases hzero : cbDest = 0
  · rw [if_pos (.inl hzero)]
    exact ⟨_, _, _, rfl, iff_of_false (by decide) (by omega), fun hlt => absurd hlt (by omega)⟩
  · rw [if_neg (by omega)]
    by_cases hlt : text.length < cbDest
    · obtain ⟨buffer', hwrite, hlength, htake⟩ := write_of_le buffer Dest (text ++ [0])
        (by rw [List.length_append, List.length_singleton]; omega)
      rw [if_pos hlt, hwrite]
      refine ⟨_, _, _, rfl, iff_of_true rfl hlt, fun _ => ⟨rfl, hlength, ?_⟩⟩
      rw [List.length_append, List.length_singleton, ← Nat.add_assoc] at htake
      exact htake
    · obtain ⟨buffer', hwrite, -⟩ := write_of_le buffer Dest (text.take (cbDest - 1) ++ [0])
        (by rw [List.length_append, List.length_take, List.length_singleton]; omega)
      rw [if_neg hlt, hwrite]
      exact ⟨_, _, _, rfl, iff_of_false (by decide) hlt, fun h => absurd h hlt⟩

theorem length_entry {c : UInt8} (hletter : letter permission.Mask = some c) :
    (entry permission).length = 1 + (decimal permission.Domain.toNat).length + 1 := by
  rw [entry, hletter]
  simp only [Option.toList_some, List.length_append, List.length_singleton]

/-- A permission is written beyond the buffer if its mask is valid and nothing is left. -/
theorem storePermissionToString_of_full {buffer : List UInt8} (hbuffer : buffer.length = payloadMax)
    (hvalid : permission.Valid) :
    storePermissionToString permission buffer payloadMax 0 = none := by
  obtain ⟨c, hletter⟩ := Option.isSome_iff_exists.mp hvalid
  have hwrite : write buffer payloadMax [c] = none := write_of_lt (by rw [List.length_singleton]; omega)
  unfold storePermissionToString
  rw [hletter]
  dsimp only
  rw [hwrite]
  rfl

/-- Else its encoding is written if it fits. -/
theorem storePermissionToString_spec {buffer : List UInt8} (hbuffer : buffer.length = payloadMax)
    {n : ℕ} (hn : n ≤ payloadMax) (hroom : ¬ (permission.Valid ∧ n = payloadMax)) :
    ∃ status buffer' Used, storePermissionToString permission buffer n (payloadMax - n) =
        some (status, buffer', Used) ∧
      (status = .success ↔ permission.Valid ∧ n + (entry permission).length ≤ payloadMax) ∧
      (status = .success → Used = (entry permission).length ∧ buffer'.length = payloadMax ∧
        buffer'.take (n + Used) = buffer.take n ++ entry permission) := by
  unfold storePermissionToString Permission.Valid
  cases hletter : letter permission.Mask with
  | none => exact ⟨_, _, _, rfl, iff_of_false (by decide) (by simp), fun h => absurd h (by decide)⟩
  | some c =>
    have hlt : n < payloadMax := lt_of_le_of_ne hn fun heq => hroom ⟨by simp [Permission.Valid, hletter], heq⟩
    obtain ⟨buffer₁, hwrite, hlength₁, htake₁⟩ := write_of_le buffer n [c]
      (by rw [List.length_singleton]; omega)
    have hsize : (payloadMax - n + 4294967295) % 4294967296 = payloadMax - n - 1 := by
      unfold payloadMax at hlt ⊢
      omega
    obtain ⟨status, buffer₂, Remaining, hprint, hstatus, hfits⟩ :=
      printf_spec buffer₁ (n + 1) (payloadMax - n - 1)
        (decimal permission.Domain.toNat) (by omega) (by omega)
    rw [List.length_singleton] at htake₁
    simp only [hwrite, hsize, Option.bind_some, hprint, Option.map_some]
    refine ⟨_, _, _, rfl, ?_, fun hsuccess => ?_⟩
    · rw [hstatus, length_entry hletter]
      simp only [Option.isSome_some, true_and]
      omega
    · have htext := hstatus.mp hsuccess
      obtain ⟨rfl, hlength₂, htake₂⟩ := hfits htext
      have hused : (payloadMax - n +
          (4294967296 - (payloadMax - n - 1 - (decimal permission.Domain.toNat).length)) + 1) %
          4294967296 = 1 + (decimal permission.Domain.toNat).length + 1 := by
        unfold payloadMax at hlt htext ⊢
        omega
      rw [hused, length_entry hletter]
      refine ⟨rfl, by omega, ?_⟩
      rw [htake₁] at htake₂
      rw [show n + (1 + (decimal permission.Domain.toNat).length + 1) =
        n + 1 + (decimal permission.Domain.toNat).length + 1 by omega, htake₂, entry, hletter]
      simp

/-! ## All permissions -/

theorem encoding_cons (Permissions : List Permission) :
    encoding (permission :: Permissions) = entry permission ++ encoding Permissions := rfl

theorem overrunsFrom_nil (n : ℕ) : ¬ OverrunsFrom n [] := by
  rintro ⟨done, p, rest, heq, -⟩
  exact absurd heq (by simp)

/-- The first permission, or one of the others. -/
theorem overrunsFrom_cons {n : ℕ} {Permissions : List Permission} :
    OverrunsFrom n (permission :: Permissions) ↔
      permission.Valid ∧ (n = payloadMax ∨ OverrunsFrom (n + (entry permission).length) Permissions) := by
  constructor
  · rintro ⟨done, p, rest, heq, hdone, hp, hlength⟩
    cases done with
    | nil =>
      obtain ⟨rfl, -⟩ := List.cons.inj heq
      exact ⟨hp, .inl hlength⟩
    | cons q done =>
      obtain ⟨rfl, htail⟩ := List.cons.inj heq
      obtain ⟨hq, hdone⟩ := List.forall_mem_cons.mp hdone
      rw [encoding_cons, List.length_append, ← Nat.add_assoc] at hlength
      exact ⟨hq, .inr ⟨done, p, rest, htail, hdone, hp, hlength⟩⟩
  · rintro ⟨hvalid, rfl | ⟨done, p, rest, rfl, hdone, hp, hlength⟩⟩
    · exact ⟨[], permission, Permissions, rfl, by simp, hvalid, rfl⟩
    · refine ⟨permission :: done, p, rest, rfl, List.forall_mem_cons.mpr ⟨hvalid, hdone⟩, hp, ?_⟩
      rw [encoding_cons, List.length_append, ← Nat.add_assoc]
      exact hlength

/-- **The loop**: the permissions are encoded one after the other, unless one of them comes when the buffer
is full. -/
theorem formatPermissions_spec (Permissions : List Permission) :
    ∀ (buffer : List UInt8) {n : ℕ}, buffer.length = payloadMax → n ≤ payloadMax →
      (formatPermissions Permissions buffer n (payloadMax - n) = none ↔ OverrunsFrom n Permissions) ∧
      ∀ buffer' Length, formatPermissions Permissions buffer n (payloadMax - n) =
          some (.success, buffer', Length) →
        (∀ p ∈ Permissions, p.Valid) ∧ payloadMax - Length = n + (encoding Permissions).length ∧
          buffer'.take (payloadMax - Length) = buffer.take n ++ encoding Permissions := by
  induction Permissions with
  | nil =>
    intro buffer n hbuffer hn
    refine ⟨iff_of_false (Option.some_ne_none _) (overrunsFrom_nil n), fun buffer' Length heq => ?_⟩
    obtain ⟨-, heq⟩ := Prod.mk.inj (Option.some.inj heq)
    obtain ⟨rfl, rfl⟩ := Prod.mk.inj heq
    have hn' : payloadMax - (payloadMax - n) = n := by omega
    rw [hn']
    exact ⟨by simp, rfl, by simp [encoding]⟩
  | cons p Permissions ih =>
    intro buffer n hbuffer hn
    rw [overrunsFrom_cons, formatPermissions]
    by_cases hfull : p.Valid ∧ n = payloadMax
    · obtain ⟨hvalid, rfl⟩ := hfull
      rw [Nat.sub_self, storePermissionToString_of_full hbuffer hvalid]
      exact ⟨iff_of_true rfl ⟨hvalid, .inl rfl⟩, fun _ _ h => absurd h.symm (Option.some_ne_none _)⟩
    · obtain ⟨status, buffer₁, Used, hformat, hstatus, hsuccess⟩ :=
        storePermissionToString_spec hbuffer hn hfull
      rw [hformat]
      dsimp only
      by_cases hok : status = .success
      · obtain ⟨rfl, hbuffer₁, htake⟩ := hsuccess hok
        obtain ⟨hvalid, hfits⟩ := hstatus.mp hok
        have hLength : (payloadMax - n + (4294967296 - (entry p).length)) % 4294967296 =
            payloadMax - (n + (entry p).length) := by
          unfold payloadMax at hfits ⊢
          omega
        obtain ⟨hnone, hall⟩ := ih buffer₁ hbuffer₁ hfits
        rw [if_pos hok, hLength, hnone]
        refine ⟨?_, fun buffer' Length heq => ?_⟩
        · constructor
          · exact fun h => ⟨hvalid, .inr h⟩
          · exact fun h => h.2.resolve_left fun heq => hfull ⟨hvalid, heq⟩
        · obtain ⟨hrest, hlength, hbuffer'⟩ := hall buffer' Length heq
          refine ⟨List.forall_mem_cons.mpr ⟨hvalid, hrest⟩, ?_, ?_⟩
          · rw [hlength, encoding_cons, List.length_append, Nat.add_assoc]
          · rw [hbuffer', htake, encoding_cons, List.append_assoc]
      · rw [if_neg hok]
        refine ⟨iff_of_false (Option.some_ne_none _) ?_, fun buffer' Length heq => ?_⟩
        · rintro ⟨hvalid, hfull' | ⟨done, q, rest, -, -, -, hlength⟩⟩
          · exact hfull ⟨hvalid, hfull'⟩
          · exact hok (hstatus.mpr ⟨hvalid, by omega⟩)
        · exact absurd (Prod.mk.inj (Option.some.inj heq)).1 hok

/-! ## Main result -/

theorem length_encoding (Permissions : List Permission) :
    (encoding Permissions).length = (Permissions.map fun p => (entry p).length).sum := by
  rw [encoding, List.length_flatMap]

/-- **The permissions stay in their buffer, and are encoded faithfully, exactly if none comes when the
buffer is full**, or the call does not get as far. -/
theorem permissions_iff (RequestId : ℕ) (transaction : Option Transaction) (Prefix : Option (List UInt8))
    (Node : List UInt8) (string path : Bool) (Permissions : List Permission) :
    Faithful Prefix Node Permissions
        (storePermissionsSet RequestId transaction Prefix Node string path Permissions) ↔
      (storeCheckPathLength Prefix Node = true → string = true → path = true → ¬ Overruns Permissions) := by
  obtain ⟨hnone, hall⟩ := formatPermissions_spec Permissions (List.replicate payloadMax 0)
    List.length_replicate (Nat.zero_le _)
  unfold storePermissionsSet
  by_cases hcheck : storeCheckPathLength Prefix Node = true
  · rw [if_neg (by simp [hcheck])]
    by_cases hmemory : string = true ∧ path = true
    · rw [if_neg (by simp [hmemory])]
      rw [Nat.sub_zero] at hnone hall
      cases hformat : formatPermissions Permissions (List.replicate payloadMax 0) 0 payloadMax with
      | none =>
        refine iff_of_false ?_ fun h => h hcheck hmemory.1 hmemory.2 (hnone.mp hformat)
        rintro ⟨result, heq, -⟩
        exact absurd heq.symm (Option.some_ne_none _)
      | some formatted =>
        obtain ⟨status, buffer, Length⟩ := formatted
        refine iff_of_true ⟨_, rfl, fun Request heq => ?_⟩ fun _ _ _ hover => ?_
        · by_cases hok : status = .success
          · subst hok
            obtain ⟨hvalid, hlength, hbuffer⟩ := hall buffer Length hformat
            rw [List.take_zero, List.nil_append] at hbuffer
            dsimp only at heq
            rw [if_pos rfl, hbuffer] at heq
            refine ⟨hvalid, ?_⟩
            cases hprepare : (storePrepareRequest RequestId transaction XS_SET_PERMS
                [watchPath Prefix Node, [0], encoding Permissions]).1 with
            | none =>
              rw [hprepare] at heq
              cases heq
            | some req =>
              rw [hprepare] at heq
              obtain rfl := Outcome.prepared.inj heq
              rw [(storePrepareRequest_spec hprepare).2.1, ← length_encoding]
              rfl
          · dsimp only at heq
            rw [if_neg hok] at heq
            cases heq
        · rw [hnone.mpr hover] at hformat
          cases hformat
    · rw [if_pos (by cases string <;> cases path <;> simp_all)]
      refine iff_of_true ⟨_, rfl, fun Request heq => ?_⟩
        fun _ hstring hpath => absurd ⟨hstring, hpath⟩ hmemory
      cases heq
  · rw [if_pos (by simpa using hcheck)]
    refine iff_of_true ⟨_, rfl, fun Request heq => ?_⟩ fun h => absurd h hcheck
    cases heq

/-- 584 permissions of 7 bytes and two of 4 fill the buffer; one more follows. -/
def full : List Permission :=
  List.replicate 584 ⟨65535, 0⟩ ++ List.replicate 2 ⟨10, 0⟩ ++ [⟨0, 0⟩]

/-- The letter of the last permission is written beyond the buffer. -/
theorem permissions_overrun : ¬ Faithful none [47] full
    (storePermissionsSet 0 none none [47] true true full) := by
  have hover : Overruns full := by
    refine ⟨List.replicate 584 ⟨65535, 0⟩ ++ List.replicate 2 ⟨10, 0⟩, ⟨0, 0⟩, [], rfl, ?_, rfl, ?_⟩
    · intro p hp
      obtain hp | hp := List.mem_append.mp hp
      · rw [List.eq_of_mem_replicate hp]
        rfl
      · rw [List.eq_of_mem_replicate hp]
        rfl
    · rw [length_encoding, List.map_append, List.map_replicate, List.map_replicate, List.sum_append,
        List.sum_replicate, List.sum_replicate]
      decide
  have hnone := (formatPermissions_spec full (List.replicate payloadMax 0)
    List.length_replicate (Nat.zero_le _)).1.mpr hover
  rintro ⟨result, heq, -⟩
  rw [Nat.sub_zero] at hnone
  rw [storePermissionsSet, if_neg (by decide), if_neg (by decide), hnone] at heq
  exact absurd heq.symm (Option.some_ne_none _)

end XenBus.Store.Permissions
