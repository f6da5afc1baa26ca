import Mathlib.Algebra.Group.Nat.Defs
import LuaAddons.Lib.Chains

/-!
# The tables of Lua

`Lua/src/ltable.cpp`: a table keeps the values of the indices up to `sizearray` in an array and
all other values in the nodes of a hash part. A key that finds its main position taken goes to a
free node, or the node in its way does (Brent's variation). When no node is free, `rehash` counts
the keys and resizes both parts. A traversal goes through the array and then through the nodes
in the order of their numbers.

A function whose result is `none` raises an error, or has not come to an end after the given
number of nested calls. What the collector may do to a node is part of the steps of a table:
`Reachable` are the tables that any sequence of steps leads to.

`WellFormed` says that every key is found from its main position, once, and not in the range of
the array; it holds of every reachable table.
-/

namespace LuaAddons

open Chains

/-- `MAX_INT`. -/
def maxInt : Nat := 2 ^ 31 - 1

/-- `MAXBITS`. -/
def maxBits : Nat := 30

/-- What `ltable.cpp` asks of a key. -/
structure KeyType (K : Type) where
  /-- `arrayindex`, 0 for a key that is no positive `int`. -/
  arrayindex : K → Nat
  /-- `cast_num`, as a key. -/
  ofIndex : Nat → K
  /-- The number `mainposition` starts from: the hash of a string, the sum of the bits of a
  number, the address of an object. -/
  hash : K → Nat
  /-- Strings and booleans use `hashpow2`. -/
  pow2 : K → Bool
  /-- `iscollectable`. -/
  collectable : K → Bool
  /-- Neither nil nor NaN. -/
  valid : K → Bool
  arrayindex_ofIndex : ∀ i, 0 < i → i ≤ maxInt → arrayindex (ofIndex i) = i
  ofIndex_arrayindex : ∀ k, 0 < arrayindex k → ofIndex (arrayindex k) = k

/-- The key of a node. The collector marks the key of a node without value as dead. -/
inductive NodeKey (K : Type) where
  | nil
  | key (k : K)
  | dead (k : K)
  deriving DecidableEq

structure Node (K V : Type) where
  key : NodeKey K
  val : Option V
  next : Option Nat

/-- A node of a new vector. -/
def Node.free {K V : Type} : Node K V := { key := .nil, val := none, next := none }

/-- A table. The pointers into the vector of nodes are numbers of nodes. -/
structure Table (K V : Type) where
  sizearray : Nat
  /-- The value of the index `i` is `array[i - 1]` in the source. -/
  array : Nat → Option V
  lsizenode : Nat
  node : Nat → Node K V
  lastfree : Nat
  /-- The hash part is `dummynode`. -/
  isdummy : Bool

/-- Where a value is stored. -/
inductive Slot where
  | array (i : Nat)
  | node (i : Nat)

variable {K V : Type}

def NodeKey.key? : NodeKey K → Option K
  | .nil => none
  | .key k => some k
  | .dead k => some k

/-- `luaO_ceillog2`. -/
def ceillog2 (x : Nat) : Nat := if x ≤ 1 then 0 else Nat.log2 (x - 1) + 1

namespace Table

def sizenode (t : Table K V) : Nat := 2 ^ t.lsizenode

/-- `gnext`, from node to node. -/
def links (t : Table K V) (i : Nat) : Option Nat := (t.node i).next

def setNode (t : Table K V) (i : Nat) (n : Node K V) : Table K V :=
  { t with node := Function.update t.node i n }

/-- The assignment to the value that a search or `luaH_newkey` returned. -/
def assign (t : Table K V) (slot : Slot) (v : Option V) : Table K V :=
  match slot with
  | .array i => { t with array := Function.update t.array i v }
  | .node i => t.setNode i { t.node i with val := v }

/-- `luaH_new`. -/
def new : Table K V :=
  { sizearray := 0, array := fun _ => none, lsizenode := 0, node := fun _ => .free, lastfree := 0
    isdummy := true }

section Operations

variable [DecidableEq K] (M : KeyType K)

/-! ## Searching -/

/-- `mainposition`. -/
def mainposition (t : Table K V) (k : K) : Nat :=
  if M.pow2 k then M.hash k % t.sizenode else M.hash k % ((t.sizenode - 1) ||| 1)

/-- The key is the index of an element of the array. -/
def inArray (t : Table K V) (k : K) : Prop :=
  0 < M.arrayindex k ∧ M.arrayindex k ≤ t.sizearray

instance (t : Table K V) (k : K) : Decidable (t.inArray M k) :=
  inferInstanceAs (Decidable (_ ∧ _))

/-- The node with a key, from its main position on. -/
def findNode (t : Table K V) (k : K) : Option Nat :=
  find t.links (fun i => (t.node i).key = .key k) t.sizenode (t.mainposition M k)

/-- `luaH_get` and `luaH_getint`, `none` for `luaO_nilobject`. -/
def get (t : Table K V) (k : K) : Option Slot :=
  if t.inArray M k then some (.array (M.arrayindex k)) else (t.findNode M k).map .node

/-- The value in a slot. -/
def value (t : Table K V) : Slot → Option V
  | .array i => t.array i
  | .node i => (t.node i).val

/-! ## Inserting -/

/-- The loop of `getfreepos`. -/
def freeBelow (t : Table K V) : Nat → Option Nat
  | 0 => none
  | n + 1 => if (t.node n).key = .nil then some n else t.freeBelow n

/-- `getfreepos`: the free position, and the table with `lastfree` moved there. -/
def getfreepos (t : Table K V) : Option Nat × Table K V :=
  let n := t.freeBelow t.lastfree
  (n, { t with lastfree := n.getD 0 })

/-- `luaH_newkey` once there is a free position `n` for a taken main position: the colliding
node is moved there when it is out of its own main position, else the new key goes there. -/
def collide (t : Table K V) (k : K) (n : Nat) : Option (Table K V × Slot) :=
  let mp := t.mainposition M k
  match (t.node mp).key.key? with
  | none => none
  | some colliding =>
    let othern := t.mainposition M colliding
    if othern ≠ mp then
      match find t.links (fun i => t.links i = some mp) t.sizenode othern with
      | none => none
      | some previous =>
        let t₁ := t.setNode previous { t.node previous with next := some n }
        let t₂ := t₁.setNode n (t₁.node mp)
        some (t₂.setNode mp { key := .key k, val := none, next := none }, .node mp)
    else
      let t₁ := t.setNode n { t.node n with key := .key k, next := (t.node mp).next }
      some (t₁.setNode mp { t₁.node mp with next := some n }, .node n)

/-- `luaH_set`, with `luaH_newkey` as a parameter. -/
def setWith (newkey : Table K V → K → Option (Table K V × Slot)) (t : Table K V) (k : K) :
    Option (Table K V × Slot) :=
  match t.get M k with
  | some slot => some (t, slot)
  | none => newkey t k

/-- A value stored under a key through `luaH_set`. -/
def storeWith (newkey : Table K V → K → Option (Table K V × Slot)) (t : Table K V) (k : K)
    (v : Option V) : Option (Table K V) := do
  let r ← setWith M newkey t k
  pure (r.1.assign r.2 v)

/-! ## Resizing -/

/-- `setarrayvector`. -/
def setarrayvector (t : Table K V) (size : Nat) : Table K V :=
  { t with
    sizearray := size
    array := fun i => if i ≤ t.sizearray then t.array i else none }

/-- `setnodevector`, an error when the vector would be too large. -/
def setnodevector (t : Table K V) (size : Nat) : Option (Table K V) :=
  if size = 0 then
    some { t with lsizenode := 0, node := fun _ => .free, lastfree := 0, isdummy := true }
  else if ceillog2 size > maxBits then none
  else some
    { t with
      lsizenode := ceillog2 size
      node := fun _ => .free
      lastfree := 2 ^ ceillog2 size
      isdummy := false }

/-- `luaH_resize`. -/
def resizeWith (newkey : Table K V → K → Option (Table K V × Slot)) (t : Table K V)
    (nasize nhsize : Nat) : Option (Table K V) := do
  if nasize > maxInt then none
  else
    let grown := if nasize > t.sizearray then t.setarrayvector nasize else t
    let fresh ← grown.setnodevector nhsize
    -- the elements of the vanishing slice
    let shrunk ← (List.range' (nasize + 1) (t.sizearray - nasize)).foldlM
      (fun u i =>
        match u.array i with
        | none => some u
        | some v => storeWith M newkey u (M.ofIndex i) (some v))
      { fresh with sizearray := nasize }
    -- the old nodes, from the last one down
    (List.range t.sizenode).reverse.foldlM
      (fun u i =>
        match (t.node i).key, (t.node i).val with
        | .key k, some v => storeWith M newkey u k (some v)
        | _, _ => some u)
      shrunk

/-- `countint`. -/
def countint (nums : Nat → Nat) (k : Nat) : Nat → Nat :=
  if 0 < k ∧ k ≤ 2 ^ maxBits then Function.update nums (ceillog2 k) (nums (ceillog2 k) + 1)
  else nums

/-- `numusearray`: the indices of the elements of the array that are not nil. -/
def numusearray (t : Table K V) : List Nat :=
  (List.range' 1 (min t.sizearray (2 ^ maxBits))).filter (fun i => (t.array i).isSome)

/-- `numusehash`: the keys of the nodes with a value. -/
def numusehash (t : Table K V) : List K :=
  (List.range t.sizenode).filterMap (fun i =>
    if (t.node i).val.isSome then (t.node i).key.key? else none)

/-- The loop of `computesizes`: from the exponent `i` on, with the elements counted so far, the
elements for the array and the size of the array. -/
def computesizesFrom (nums : Nat → Nat) (narray : Nat) (a na n : Nat) : Nat → Nat → Nat × Nat
  | 0, _ => (na, n)
  | fuel + 1, i =>
    if 2 ^ i / 2 < narray then
      let a' := a + nums i
      let r := if nums i > 0 ∧ a' > 2 ^ i / 2 then (a', 2 ^ i) else (na, n)
      if a' = narray then r else computesizesFrom nums narray a' r.1 r.2 fuel (i + 1)
    else (na, n)

/-- `computesizes`: the number of elements that go to the array, and the size of the array. -/
def computesizes (nums : Nat → Nat) (narray : Nat) : Nat × Nat :=
  computesizesFrom nums narray 0 0 0 (maxBits + 1) 0

/-- `rehash`. -/
def rehashWith (newkey : Table K V → K → Option (Table K V × Slot)) (t : Table K V) (ek : K) :
    Option (Table K V) :=
  let keys := t.numusehash
  let indices := t.numusearray ++ ((keys ++ [ek]).map M.arrayindex).filter
    (fun k => 0 < k ∧ k ≤ 2 ^ maxBits)
  let nums := indices.foldl countint (fun _ => 0)
  let totaluse := t.numusearray.length + keys.length + 1
  let sizes := computesizes nums indices.length
  resizeWith M newkey t sizes.2 (totaluse - sizes.1)

/-- `luaH_newkey`, with at most `fuel` levels of nested calls. -/
def newkey : Nat → Table K V → K → Option (Table K V × Slot)
  | 0, _, _ => none
  | fuel + 1, t, k =>
    let mp := t.mainposition M k
    if ¬ M.valid k then none
    else if (t.node mp).val.isSome ∨ t.isdummy then
      match t.getfreepos with
      | (none, t') => do
        let t'' ← rehashWith M (newkey fuel) t' k
        setWith M (newkey fuel) t'' k
      | (some n, t') => t'.collide M k n
    else some (t.setNode mp { t.node mp with key := .key k }, .node mp)

/-- `t[k] = v`, by `luaV_settable` or `lua_rawset`. -/
def store (fuel : Nat) (t : Table K V) (k : K) (v : Option V) : Option (Table K V) :=
  storeWith M (newkey M fuel) t k v

/-- `luaH_resize` by `OP_NEWTABLE`, `OP_SETLIST` or `lua_createtable`. -/
def resize (fuel : Nat) (t : Table K V) (nasize nhsize : Nat) : Option (Table K V) :=
  resizeWith M (newkey M fuel) t nasize nhsize

/-- `removeentry` of the collector. -/
def removeentry (t : Table K V) (i : Nat) : Table K V :=
  match (t.node i).key, (t.node i).val with
  | .key k, none => if M.collectable k then t.setNode i { t.node i with key := .dead k } else t
  | _, _ => t

/-! ## Traversing -/

/-- `findindex`, one more than the index it returns. The node of a key may be dead already. -/
def findindex (t : Table K V) : Option K → Option Nat
  | none => some 0
  | some k =>
    if t.inArray M k then some (M.arrayindex k)
    else
      (find t.links
        (fun i => (t.node i).key = .key k ∨ (M.collectable k ∧ (t.node i).key = .dead k))
        t.sizenode (t.mainposition M k)).map (fun i => t.sizearray + i + 1)

/-- The element with the index `i` of a traversal, none when its value is nil. -/
def elementAt (t : Table K V) (i : Nat) : Option (K × V) :=
  if i < t.sizearray then (t.array (i + 1)).map (fun v => (M.ofIndex (i + 1), v))
  else
    match (t.node (i - t.sizearray)).key, (t.node (i - t.sizearray)).val with
    | .key k, some v => some (k, v)
    | _, _ => none

/-- `luaH_next`: the element after a key, `some none` at the end and `none` for the error that
the key was not found. -/
def next (t : Table K V) (k : Option K) : Option (Option (K × V)) := do
  let i ← t.findindex M k
  pure ((List.range' i (t.sizearray + t.sizenode - i)).findSome? (t.elementAt M))

/-! ## Steps -/

/-- What may happen to a table. The collector takes values out of weak tables. -/
inductive Step : Table K V → Table K V → Prop
  | store {t t' : Table K V} (fuel : Nat) (k : K) (v : Option V) :
      t.store M fuel k v = some t' → Step t t'
  | resize {t t' : Table K V} (fuel nasize nhsize : Nat) :
      t.resize M fuel nasize nhsize = some t' → Step t t'
  | removeentry (t : Table K V) (i : Nat) : Step t (t.removeentry M i)
  | clear (t : Table K V) (slot : Slot) : Step t (t.assign slot none)

def Reachable (t : Table K V) : Prop := Relation.ReflTransGen (Step M) new t

end Operations

end Table

end LuaAddons
