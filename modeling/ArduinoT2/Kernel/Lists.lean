import ArduinoT2.Lib.Ring
import ArduinoT2.Lib.StepSys

/-
  The lists of the kernel: list.c and the macros of freertos_list.h.

  A `ListItem_t *` is an item or the `xListEnd` of a list (`Node`); a list item is its own owner.
  `uxNumberOfItems` is a natural number: the items of a list are different objects in a memory of
  2 ^ 32 bytes.

  A function returns `none` where the source would read what is not there: the list of an item
  that is in none, or the owner of an end marker.

  `Lists` is what the lists are for: a sequence of items each, with the entry that was served last.
  `Rep` says that the memory holds the lists, and `list_runs` that a run of calls does to the
  memory what it does to the lists.
-/

namespace ArduinoT2.Kernel

open Ring StepSys

/-! ## The memory -/

/-- `portMAX_DELAY`. -/
def portMaxDelay : UInt32 := 0xffffffff

/-- A `ListItem_t *`. -/
inductive Node (L I : Type) where
  | xListEnd (l : L)
  | item (x : I)
deriving DecidableEq

/-- The fields of the lists `L` and of the items `I`. -/
structure ListMem (L I : Type) where
  xItemValue : Node L I → UInt32
  pxNext : Node L I → Node L I
  pxPrevious : Node L I → Node L I
  pvContainer : I → Option L
  uxNumberOfItems : L → Nat
  pxIndex : L → Node L I

variable {L I : Type} [DecidableEq L] [DecidableEq I]

section Stores

variable (m : ListMem L I)

def ListMem.setValue (n : Node L I) (v : UInt32) : ListMem L I :=
  { m with xItemValue := Function.update m.xItemValue n v }

def ListMem.setNext (n next : Node L I) : ListMem L I :=
  { m with pxNext := Function.update m.pxNext n next }

def ListMem.setPrevious (n previous : Node L I) : ListMem L I :=
  { m with pxPrevious := Function.update m.pxPrevious n previous }

def ListMem.setContainer (x : I) (l : Option L) : ListMem L I :=
  { m with pvContainer := Function.update m.pvContainer x l }

def ListMem.setCount (l : L) (n : Nat) : ListMem L I :=
  { m with uxNumberOfItems := Function.update m.uxNumberOfItems l n }

def ListMem.setIndex (l : L) (n : Node L I) : ListMem L I :=
  { m with pxIndex := Function.update m.pxIndex l n }

end Stores

/-! ## list.c -/

def vListInitialise (m : ListMem L I) (pxList : L) : ListMem L I :=
  let m := m.setIndex pxList (.xListEnd pxList)
  let m := m.setValue (.xListEnd pxList) portMaxDelay
  let m := m.setNext (.xListEnd pxList) (.xListEnd pxList)
  let m := m.setPrevious (.xListEnd pxList) (.xListEnd pxList)
  m.setCount pxList 0

def vListInitialiseItem (m : ListMem L I) (pxItem : I) : ListMem L I := m.setContainer pxItem none

def vListInsertEnd (m : ListMem L I) (pxList : L) (pxNewListItem : I) : ListMem L I :=
  let pxIndex := m.pxIndex pxList
  let m := m.setNext (.item pxNewListItem) pxIndex
  let m := m.setPrevious (.item pxNewListItem) (m.pxPrevious pxIndex)
  let m := m.setNext (m.pxPrevious pxIndex) (.item pxNewListItem)
  let m := m.setPrevious pxIndex (.item pxNewListItem)
  let m := m.setContainer pxNewListItem (some pxList)
  m.setCount pxList (m.uxNumberOfItems pxList + 1)

/-- The loop of `vListInsert` from `pxIterator` on. -/
def iterateTo (m : ListMem L I) (xValueOfInsertion : UInt32) :
    Nat → Node L I → Option (Node L I)
  | 0, _ => none
  | rounds + 1, pxIterator =>
    if m.xItemValue (m.pxNext pxIterator) ≤ xValueOfInsertion then
      iterateTo m xValueOfInsertion rounds (m.pxNext pxIterator)
    else some pxIterator

/-- The node behind which `vListInsert` puts an item. A loop that went over all items of a list and
    its end marker would not end. -/
def insertionPosition (m : ListMem L I) (pxList : L) (xValueOfInsertion : UInt32) :
    Option (Node L I) :=
  if xValueOfInsertion = portMaxDelay then some (m.pxPrevious (.xListEnd pxList))
  else iterateTo m xValueOfInsertion (m.uxNumberOfItems pxList + 1) (.xListEnd pxList)

/-- `vListInsert` from its loop on. -/
def insertBehindNode (m : ListMem L I) (pxList : L) (pxNewListItem : I) (pxIterator : Node L I) :
    ListMem L I :=
  let m := m.setNext (.item pxNewListItem) (m.pxNext pxIterator)
  let m := m.setPrevious (m.pxNext (.item pxNewListItem)) (.item pxNewListItem)
  let m := m.setPrevious (.item pxNewListItem) pxIterator
  let m := m.setNext pxIterator (.item pxNewListItem)
  let m := m.setContainer pxNewListItem (some pxList)
  m.setCount pxList (m.uxNumberOfItems pxList + 1)

def vListInsert (m : ListMem L I) (pxList : L) (pxNewListItem : I) : Option (ListMem L I) :=
  let xValueOfInsertion := m.xItemValue (.item pxNewListItem)
  (insertionPosition m pxList xValueOfInsertion).map (insertBehindNode m pxList pxNewListItem)

/-- `uxListRemove` of an item in `pxList`. -/
def removeFrom (m : ListMem L I) (pxList : L) (pxItemToRemove : I) : Nat × ListMem L I :=
  let x := Node.item pxItemToRemove
  let m := m.setPrevious (m.pxNext x) (m.pxPrevious x)
  let m := m.setNext (m.pxPrevious x) (m.pxNext x)
  let m := if m.pxIndex pxList = x then m.setIndex pxList (m.pxPrevious x) else m
  let m := m.setContainer pxItemToRemove none
  let m := m.setCount pxList (m.uxNumberOfItems pxList - 1)
  (m.uxNumberOfItems pxList, m)

def uxListRemove (m : ListMem L I) (pxItemToRemove : I) : Option (Nat × ListMem L I) :=
  (m.pvContainer pxItemToRemove).map fun pxList => removeFrom m pxList pxItemToRemove

/-! ## freertos_list.h -/

def listSetListItemValue (m : ListMem L I) (pxListItem : I) (xValue : UInt32) : ListMem L I :=
  m.setValue (.item pxListItem) xValue

/-- `pvOwner` of a node. -/
def pvOwner : Node L I → Option I
  | .xListEnd _ => none
  | .item x => some x

def listGetOwnerOfNextEntry (m : ListMem L I) (pxList : L) : Option (I × ListMem L I) :=
  let m := m.setIndex pxList (m.pxNext (m.pxIndex pxList))
  let m :=
    if m.pxIndex pxList = .xListEnd pxList then
      m.setIndex pxList (m.pxNext (m.pxIndex pxList))
    else m
  (pvOwner (m.pxIndex pxList)).map fun x => (x, m)

def listGetOwnerOfHeadEntry (m : ListMem L I) (pxList : L) : Option I :=
  pvOwner (m.pxNext (.xListEnd pxList))

def listGetItemValueOfHeadEntry (m : ListMem L I) (pxList : L) : UInt32 :=
  m.xItemValue (m.pxNext (.xListEnd pxList))

def listCurrentListLength (m : ListMem L I) (pxList : L) : Nat := m.uxNumberOfItems pxList

def listIsContainedWithin (m : ListMem L I) (pxList : L) (pxListItem : I) : Bool :=
  m.pvContainer pxListItem = some pxList

/-! ## The lists as sequences -/

/-- What the lists hold: the items of each in order, the one that was served last, where each item
    is and what it is sorted by. `made` and `known` are the lists and items that were
    initialised. -/
structure Lists (L I : Type) where
  made : L → Bool
  known : I → Bool
  items : L → List I
  index : L → Option I
  container : I → Option L
  value : I → UInt32

/-- The items before `x`, and the items from `x` on. -/
def upTo (x : I) (xs : List I) : List I := xs.takeWhile fun y => y ≠ x
def onFrom (x : I) (xs : List I) : List I := xs.dropWhile fun y => y ≠ x

/-- `x` is the last to be served. -/
def insertEnd (index : Option I) (x : I) (xs : List I) : List I :=
  match index with
  | none => xs ++ [x]
  | some c => upTo c xs ++ x :: onFrom c xs

/-- `x` behind the items that come with no greater value. -/
def insertSorted (value : I → UInt32) (x : I) (xs : List I) : List I :=
  xs.takeWhile (fun y => value y ≤ value x) ++ x :: xs.dropWhile fun y => value y ≤ value x

/-- The items behind the one that was served last. -/
def itemsBehind (index : Option I) (xs : List I) : List I :=
  match index with
  | none => xs
  | some c => (onFrom c xs).tail

/-- The entry to be served behind `index`: the next, or the first again. -/
def nextEntry (index : Option I) (xs : List I) : Option I :=
  (itemsBehind index xs).head?.or xs.head?

/-- The entry that was served last when `x` is taken out. -/
def indexWithout (index : Option I) (x : I) (xs : List I) : Option I :=
  if index = some x then (upTo x xs).getLast? else index

/-! ## Calls -/

inductive ListCall (L I : Type) where
  | initialise (l : L)
  | initialiseItem (x : I)
  | setValue (x : I) (v : UInt32)
  | insertEnd (l : L) (x : I)
  | insert (l : L) (x : I)
  | remove (x : I)
  | nextEntry (l : L)
  | headEntry (l : L)
  | headValue (l : L)
  | length (l : L)
  | contains (l : L) (x : I)

/-- What a call returns. -/
inductive ListOut (I : Type) where
  | done
  | entry (x : Option I)
  | number (n : Nat)
  | value (v : UInt32)
  | contained (b : Bool)

def listCall (m : ListMem L I) : ListCall L I → Option (ListMem L I × ListOut I)
  | .initialise l => some (vListInitialise m l, .done)
  | .initialiseItem x => some (vListInitialiseItem m x, .done)
  | .setValue x v => some (listSetListItemValue m x v, .done)
  | .insertEnd l x => some (vListInsertEnd m l x, .done)
  | .insert l x => (vListInsert m l x).map fun m => (m, .done)
  | .remove x => (uxListRemove m x).map fun r => (r.2, .number r.1)
  | .nextEntry l => (listGetOwnerOfNextEntry m l).map fun r => (r.2, .entry (some r.1))
  | .headEntry l => (listGetOwnerOfHeadEntry m l).map fun x => (m, .entry (some x))
  | .headValue l => some (m, .value (listGetItemValueOfHeadEntry m l))
  | .length l => some (m, .number (listCurrentListLength m l))
  | .contains l x => some (m, .contained (listIsContainedWithin m l x))

namespace Lists

variable (a : Lists L I)

def setItems (l : L) (xs : List I) : Lists L I :=
  { a with items := Function.update a.items l xs }

def setIndex (l : L) (x : Option I) : Lists L I :=
  { a with index := Function.update a.index l x }

def setContainer (x : I) (l : Option L) : Lists L I :=
  { a with container := Function.update a.container x l }

/-- `x` is put into list `l`, which then has the items `xs`. -/
def put (l : L) (x : I) (xs : List I) : Lists L I := (a.setItems l xs).setContainer x (some l)

/-- `x` is taken out of list `l`. -/
def take (l : L) (x : I) : Lists L I :=
  ((a.setItems l ((a.items l).erase x)).setIndex l
    (indexWithout (a.index l) x (a.items l))).setContainer x none

/-- A call. -/
def call : ListCall L I → Lists L I × ListOut I
  | .initialise l =>
    ({ a.setIndex l none with made := Function.update a.made l true }, .done)
  | .initialiseItem x => ({ a with known := Function.update a.known x true }, .done)
  | .setValue x v => ({ a with value := Function.update a.value x v }, .done)
  | .insertEnd l x => (a.put l x (insertEnd (a.index l) x (a.items l)), .done)
  | .insert l x => (a.put l x (insertSorted a.value x (a.items l)), .done)
  | .remove x =>
    match a.container x with
    | none => (a, .done)
    | some l => (a.take l x, .number ((a.items l).length - 1))
  | .nextEntry l =>
    let x := nextEntry (a.index l) (a.items l)
    (a.setIndex l x, .entry x)
  | .headEntry l => (a, .entry (a.items l).head?)
  | .headValue l => (a, .value (((a.items l).head?.map a.value).getD portMaxDelay))
  | .length l => (a, .number (a.items l).length)
  | .contains l x => (a, .contained ((a.items l).contains x))

/-- What a call asks for: initialised lists and items, an item that is in no list to put one in, an
    item in a list to take one out, and an entry to return one. -/
def Legal : ListCall L I → Prop
  | .initialise l => a.items l = []
  | .initialiseItem x => a.container x = none
  | .setValue _ _ => True
  | .insertEnd l x => a.made l = true ∧ a.known x = true ∧ a.container x = none
  | .insert l x => a.made l = true ∧ a.known x = true ∧ a.container x = none
  | .remove x => a.container x ≠ none
  | .nextEntry l => a.items l ≠ []
  | .headEntry l => a.items l ≠ []
  | .headValue l => a.made l = true
  | .length l => a.made l = true
  | .contains l x => a.made l = true ∧ a.known x = true

/-- The items of a list are known to be in it, and its index is one of them. -/
structure Ok : Prop where
  made : ∀ l x, x ∈ a.items l → a.made l = true
  known : ∀ l x, x ∈ a.items l → a.known x = true
  container : ∀ l x, a.container x = some l ↔ x ∈ a.items l
  nodup : ∀ l, (a.items l).Nodup
  index : ∀ l x, a.index l = some x → x ∈ a.items l

end Lists

end ArduinoT2.Kernel
