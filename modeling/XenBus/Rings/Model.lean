import XenBus.Foundations.Ring
import XenBus.Foundations.Transition

/-!
# Copying to and from the shared rings

`store.c` and `console.c` share a page with a peer. In each of its rings one side puts bytes and moves
`prod`, the other takes bytes and moves `cons`; both indices run freely in 32 bits. `StoreCopyToRing`
and `ConsoleCopyToOut` are the same loop around `RtlCopyMemory`, up to the ring and its size, and so are
`StoreCopyFromRing` and `ConsoleCopyFromIn`.

A step is one access of the routine to the page (the read of an index, the copy of a block, the write of
its own index) or one of the peer. The peer reads or writes one byte at a time, ahead of its index, and
moves its index over bytes that it has read or written; it stays within what the other side has left it.
`M` is the range of the indices and of a `ULONG`, `N` the size of the ring.
-/

namespace XenBus.Rings

open Transition

variable {β : Type*}

/-- Where a call is: the routine moves the index `own` and looks once at the index `peer`. -/
inductive Pc (β : Type*)
  | idle
  /-- Before the read of the peer's index. -/
  | readPeer (Data : List β) (own : ℕ)
  /-- At the test of the loop. -/
  | loop (Data : List β) (own peer Offset Length : ℕ)
  deriving DecidableEq

/-! ## The guest puts bytes -/

/-- A ring that the guest fills: what the peer has taken, `ahead` bytes of it beyond `cons`, and the
calls that have returned, with the number that they report. -/
structure Send (β : Type*) where
  cells : ℕ → β
  prod : ℕ
  cons : ℕ
  pc : Pc β
  ahead : ℕ
  taken : List β
  calls : List (List β × ℕ)

inductive SendAct (β : Type*)
  /-- A call, with its read of `prod`. -/
  | call (Data : List β)
  /-- The next access of the call. -/
  | cpu
  | peerRead
  | peerAdvance (n : ℕ)

/-- One step of `StoreCopyToRing` or `ConsoleCopyToOut`, or of the peer. -/
def copyTo (M N : ℕ) (s : Send β) : SendAct β → Option (Send β)
  | .call Data =>
    match s.pc with
    | .idle => if Data.length < M then some { s with pc := .readPeer Data s.prod } else none
    | _ => none
  | .cpu =>
    match s.pc with
    | .idle => none
    | .readPeer Data prod => some { s with pc := .loop Data prod s.cons 0 Data.length }
    | .loop Data prod cons Offset Length =>
      let Available := Ring.room M N prod cons
      if Length = 0 ∨ Available = 0 then
        some { s with prod := prod, pc := .idle, calls := s.calls ++ [(Data, Offset)] }
      else
        let Index := prod % N
        let CopyLength := min (min Length Available) (N - Index)
        some { s with
          cells := Ring.store s.cells Index ((Data.drop Offset).take CopyLength)
          pc := .loop Data ((prod + CopyLength) % M) cons (Offset + CopyLength)
            (Length - CopyLength) }
  | .peerRead =>
    if s.ahead < Ring.available M s.prod s.cons then
      some { s with
        ahead := s.ahead + 1
        taken := s.taken ++ [s.cells ((s.cons + s.ahead) % N)] }
    else none
  | .peerAdvance n =>
    if n ≤ s.ahead then some { s with ahead := s.ahead - n, cons := (s.cons + n) % M } else none

/-- No call yet. -/
def Send.start (cells : ℕ → β) (prod cons : ℕ) : Send β := ⟨cells, prod, cons, .idle, 0, [], []⟩

/-- The part of the data that a call has moved, by its own report. -/
def moved (c : List β × ℕ) : List β := c.1.take c.2

/-- What the guest has put, after the bytes `before` that the ring held at first. -/
def Send.sent (s : Send β) (before : List β) : List β := before ++ (s.calls.map moved).flatten

/-! ## The guest takes bytes -/

/-- A ring that the peer fills: what the peer has put, `ahead` bytes of it beyond `prod`, and the calls
that have returned, with their buffer and the number that they report. -/
structure Receive (β : Type*) where
  cells : ℕ → β
  prod : ℕ
  cons : ℕ
  pc : Pc β
  ahead : ℕ
  put : List β
  calls : List (List β × ℕ)

inductive ReceiveAct (β : Type*)
  /-- A call with a buffer, with its read of `cons`. -/
  | call (Data : List β)
  /-- The next access of the call. -/
  | cpu
  | peerWrite (b : β)
  | peerAdvance (n : ℕ)

/-- The buffer after a block has been copied to `Data + Offset`. -/
def splice (Data : List β) (Offset : ℕ) (block : List β) : List β :=
  Data.take Offset ++ block ++ Data.drop (Offset + block.length)

/-- One step of `StoreCopyFromRing` or `ConsoleCopyFromIn`, or of the peer. -/
def copyFrom (M N : ℕ) (s : Receive β) : ReceiveAct β → Option (Receive β)
  | .call Data =>
    match s.pc with
    | .idle => if Data.length < M then some { s with pc := .readPeer Data s.cons } else none
    | _ => none
  | .cpu =>
    match s.pc with
    | .idle => none
    | .readPeer Data cons => some { s with pc := .loop Data cons s.prod 0 Data.length }
    | .loop Data cons prod Offset Length =>
      let Available := Ring.available M prod cons
      if Length = 0 ∨ Available = 0 then
        some { s with cons := cons, pc := .idle, calls := s.calls ++ [(Data, Offset)] }
      else
        let Index := cons % N
        let CopyLength := min (min Length Available) (N - Index)
        let block := (List.range CopyLength).map fun k => s.cells (Index + k)
        some { s with
          pc := .loop (splice Data Offset block) ((cons + CopyLength) % M) prod
            (Offset + CopyLength) (Length - CopyLength) }
  | .peerWrite b =>
    if Ring.available M s.prod s.cons + s.ahead < N then
      some { s with
        cells := Ring.store s.cells ((s.prod + s.ahead) % N) [b]
        ahead := s.ahead + 1
        put := s.put ++ [b] }
    else none
  | .peerAdvance n =>
    if n ≤ s.ahead then some { s with ahead := s.ahead - n, prod := (s.prod + n) % M } else none

/-- No call yet. -/
def Receive.start (M N : ℕ) (cells : ℕ → β) (prod cons : ℕ) : Receive β :=
  ⟨cells, prod, cons, .idle, 0, Ring.contents M N cells prod cons, []⟩

/-- What the guest has taken. -/
def Receive.got (s : Receive β) : List β := (s.calls.map moved).flatten

/-! ## The four rings -/

/-- `StoreCopyToRing`: `Shared->req`, of `XENSTORE_RING_SIZE` bytes. -/
def storeCopyToRing : Send UInt8 → SendAct UInt8 → Option (Send UInt8) := copyTo 4294967296 1024

/-- `ConsoleCopyToOut`: `Shared->out`. -/
def consoleCopyToOut : Send UInt8 → SendAct UInt8 → Option (Send UInt8) := copyTo 4294967296 2048

/-- `StoreCopyFromRing`: `Shared->rsp`, of `XENSTORE_RING_SIZE` bytes. -/
def storeCopyFromRing : Receive UInt8 → ReceiveAct UInt8 → Option (Receive UInt8) :=
  copyFrom 4294967296 1024

/-- `ConsoleCopyFromIn`: `Shared->in`. -/
def consoleCopyFromIn : Receive UInt8 → ReceiveAct UInt8 → Option (Receive UInt8) :=
  copyFrom 4294967296 1024

end XenBus.Rings
