import Mathlib.Tactic
import Routn.Endian
import Routn.Foundation.Rounding
import Routn.Foundation.Splice

/-!
# `ByteArray`: a linked list of pages with a cursor

The data members and the untyped operations of `Routn::ByteArray`.

* A `Node*` is the index of a node in the list that hangs off `_root`, and `none` is the null
  pointer.  Each copy loop of the source walks the suffix of the list that starts at `_cur`; a loop
  reports how often it executed `_cur = _cur->next`, and reading through a null `_cur` ends it with
  `none`.
* An operation is a function on the whole state that either returns or raises a `Fault`, and it
  returns the state in both cases: what an operation leaves behind when it throws is visible.
* `new char[s]` does not initialise the page.  What the allocator hands out is the field `heap`, an
  arbitrary sequence of page contents; nothing below assumes anything about it.
* `addCapacity` computes the number of pages in `double`.  `pageCount` rounds as the source does,
  with a 53-bit significand.
-/

namespace Routn

open Foundation

/-- How an operation can fail: by throwing `std::out_of_range`, or by dereferencing a null node
pointer, which no `catch` sees. -/
inductive Fault
  | outOfRange (what : String)
  | nullNode
deriving DecidableEq, Repr

namespace ByteArray

/-- A page. -/
structure Node where
  ptr : List UInt8
deriving DecidableEq, Repr

def Node.size (node : Node) : Nat := node.ptr.length

/-- `new Node(s)`: the page keeps whatever the allocated memory holds. -/
def Node.alloc (contents : Nat → UInt8) (s : Nat) : Node := ⟨(List.range s).map contents⟩

/-- `memcpy(node->ptr + npos, buf, n)`. -/
def Node.memcpy (node : Node) (npos : Nat) (buf : List UInt8) : Node := ⟨splice node.ptr npos buf⟩

end ByteArray

/-- The data members of `Routn::ByteArray`; `nodes` is the list that starts at `_root`. -/
structure ByteArray where
  baseSize : Nat
  capacity : Nat
  position : Nat
  size : Nat
  endian : ByteOrder
  nodes : List ByteArray.Node
  cur : Option Nat
  heap : Nat → Nat → UInt8

/-- A member function of `ByteArray`. -/
abbrev ByteArrayM := EStateM Fault ByteArray

namespace ByteArray

/-- The constructor.  The default page size of the header is `4096`. -/
def new (heap : Nat → Nat → UInt8) (base_size : Nat) : ByteArray where
  baseSize := base_size
  capacity := base_size
  position := 0
  size := 0
  endian := .bigEndian
  nodes := [Node.alloc (heap 0) base_size]
  cur := some 0
  heap := fun k => heap (k + 1)

def isLittleEndian (ba : ByteArray) : Bool := ba.endian = .littleEndian

def setIsLittleEndian (ba : ByteArray) (val : Bool) : ByteArray :=
  { ba with endian := if val then .littleEndian else .bigEndian }

/-- Bytes between the cursor and the end of the data. -/
def getReadSize (ba : ByteArray) : Nat := ba.size - ba.position

/-- Bytes between the cursor and the end of the last page. -/
def getCapcity (ba : ByteArray) : Nat := ba.capacity - ba.position

/-- The pointer to the node with this index: null past the end of the list. -/
def link (nodes : List Node) (index : Nat) : Option Nat :=
  if index < nodes.length then some index else none

/-- `ceil(1.0 * size / _baseSize)`, computed in `double`. -/
def pageCount (size baseSize : Nat) : Nat :=
  ⌈roundTo 53 (roundTo 53 size / roundTo 53 baseSize)⌉.toNat

/-- `addCapacity`.  The new pages go to the end of the list; a null `_cur` is set to the first of
them. -/
def addCapacity (size : Nat) (ba : ByteArray) : ByteArray :=
  if size = 0 then ba
  -- The test is made twice in the source, once strictly; the second covers the first.
  else if ba.getCapcity > size then ba
  else
    let old_cap := ba.getCapcity
    if old_cap ≥ size then ba
    else
      let size := size - old_cap
      let count := pageCount size ba.baseSize
      let fresh := (List.range count).map fun i => Node.alloc (ba.heap i) ba.baseSize
      -- `first` stays null when the rounded count is zero.
      let first := if count = 0 then none else some ba.nodes.length
      { ba with
        nodes := ba.nodes ++ fresh
        capacity := ba.capacity + count * ba.baseSize
        -- No room left means that the cursor was at the end and `_cur` null.
        cur := if old_cap = 0 then first else ba.cur
        heap := fun k => ba.heap (k + count) }

/-- The loop of `write` over the nodes from `_cur` on: the nodes as it leaves them and the number
of times it advanced `_cur`. -/
def writeLoop : Nat → List UInt8 → List Node → Option (List Node × Nat)
  | _, _, [] => none
  | npos, buf, node :: rest =>
      let ncap := node.size - npos
      if ncap ≥ buf.length then
        -- The rest fits: `_cur` moves on only if the page is now full to its end.
        some (node.memcpy npos buf :: rest, if node.size = npos + buf.length then 1 else 0)
      else
        (writeLoop 0 (buf.drop ncap) rest).map fun (rest', moved) =>
          (node.memcpy npos (buf.take ncap) :: rest', moved + 1)

def write (buf : List UInt8) : ByteArrayM Unit := fun ba =>
  if buf.length = 0 then .ok () ba
  else
    let ba := ba.addCapacity buf.length
    match ba.cur with
    -- `_cur->size` is read in front of the loop.
    | none => .error .nullNode ba
    | some k =>
        match writeLoop (ba.position % ba.baseSize) buf (ba.nodes.drop k) with
        | none => .error .nullNode ba
        | some (written, moved) =>
            let position := ba.position + buf.length
            .ok () { ba with
              nodes := ba.nodes.take k ++ written
              cur := link ba.nodes (k + moved)
              position := position
              size := if position > ba.size then position else ba.size }

/-- The loop of `read` over the nodes from `_cur` on, entered with `size > 0`: the bytes copied
out and the number of times it advanced `_cur`. -/
def readLoop : Nat → Nat → List Node → Option (List UInt8 × Nat)
  | _, _, [] => none
  | npos, size, node :: rest =>
      let ncap := node.size - npos
      if ncap ≥ size then
        some ((node.ptr.drop npos).take size, if node.size = npos + size then 1 else 0)
      else
        (readLoop 0 (size - ncap) rest).map fun (bytes, moved) =>
          ((node.ptr.drop npos).take ncap ++ bytes, moved + 1)

/-- `read`.  Unlike `write` it has no early return for `size == 0`: `_cur->size` is read before the
loop condition is tested. -/
def read (size : Nat) : ByteArrayM (List UInt8) := fun ba =>
  if size > ba.getReadSize then .error (.outOfRange "not enouth length") ba
  else
    match ba.cur with
    | none => .error .nullNode ba
    | some k =>
        if size = 0 then .ok [] ba
        else
          match readLoop (ba.position % ba.baseSize) size (ba.nodes.drop k) with
          | none => .error .nullNode ba
          | some (bytes, moved) =>
              .ok bytes { ba with
                position := ba.position + size
                cur := link ba.nodes (k + moved) }

/-- The two loops at the end of `setPosition`: the index of the node they leave in `_cur`. -/
def seek : Nat → List Node → Option Nat
  | _, [] => none
  | v, node :: rest =>
      -- Strictly greater: a target at the end of a page leaves the loop in that page ...
      if v > node.size then (seek (v - node.size) rest).map (· + 1)
      -- ... and the test behind the loop moves on to the next one.
      else if v = node.size then some 1
      else some 0

def setPosition (v : Nat) : ByteArrayM Unit := fun ba =>
  if v > ba.capacity then .error (.outOfRange "set position out of range") ba
  else
    match seek v ba.nodes with
    | none => .error .nullNode ba
    | some k =>
        .ok () { ba with
          position := v
          size := if v > ba.size then v else ba.size
          cur := link ba.nodes k }

/-- `clear`: every page but the first is freed. -/
def clear : ByteArrayM Unit := fun ba =>
  .ok () { ba with
    position := 0
    size := 0
    capacity := ba.baseSize
    nodes := ba.nodes.take 1
    cur := some 0 }

/-- One entry of the scatter list handed to `recvmsg` and `sendmsg`: `len` bytes of a page from
the offset `base` on. -/
structure Iovec where
  node : Nat
  base : Nat
  len : Nat
deriving DecidableEq, Repr

/-- The loop that `getReadBuffers` and `getWriteBuffers` share, entered with `len > 0`. -/
def iovLoop : Nat → Nat → Nat → List Node → Option (List Iovec)
  | _, _, _, [] => none
  | index, npos, len, node :: rest =>
      let ncap := node.size - npos
      if ncap ≥ len then some [⟨index, npos, len⟩]
      else (iovLoop (index + 1) 0 (len - ncap) rest).map fun iovs => ⟨index, npos, ncap⟩ :: iovs

/-- `getReadBuffers(buffers, len)`. -/
def getReadBuffers (len : Nat) : ByteArrayM (List Iovec) := fun ba =>
  let len := if len > ba.getReadSize then ba.getReadSize else len
  if len = 0 then .ok [] ba
  else
    match ba.cur with
    | none => .error .nullNode ba
    | some k =>
        match iovLoop k (ba.position % ba.baseSize) len (ba.nodes.drop k) with
        | none => .error .nullNode ba
        | some iovs => .ok iovs ba

/-- `getWriteBuffers(buffers, len)`. -/
def getWriteBuffers (len : Nat) : ByteArrayM (List Iovec) := fun ba =>
  if len = 0 then .ok [] ba
  else
    let ba := ba.addCapacity len
    match ba.cur with
    | none => .error .nullNode ba
    | some k =>
        match iovLoop k (ba.position % ba.baseSize) len (ba.nodes.drop k) with
        | none => .error .nullNode ba
        | some iovs => .ok iovs ba

end ByteArray
end Routn
