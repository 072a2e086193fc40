import Mathlib.Logic.Function.Basic
import BoundaryEventSdk.Java.Heap
import BoundaryEventSdk.Java.LinkedHashSet
import BoundaryEventSdk.Java.Outcome
import BoundaryEventSdk.Java.Text

/-!
# Host lists

`hosts.json` holds lists of hosts, each list with a port and a community that
its hosts inherit.  `HostLists.getHosts` writes the inherited values into the
`Host` objects while it puts the objects into a `LinkedHashSet`, whose hash and
`equals` read the very fields that are written.  The objects stay completed for
the next call.

So the model has a heap of hosts, and the set holds references.  The key idea
is `Settling`: at any time every host is either as it was decoded or completed
from its list, and completing it again changes nothing.  With it
`hostsSelected_selectHosts` gives the result in terms of the decoded hosts
alone, whatever was resolved before.
-/

namespace BoundaryEventSdk.Snmp

open BoundaryEventSdk.Java

/-! ## Hosts -/

/-- `Host.UKNOWN_PORT`. -/
def unknownPort : Int64 := -1

/-- The fields of a `Host`.  The default values are those of `new Host()`. -/
structure Host where
  host : Option JString := none
  communityRead : Option JString := none
  port : Int64 := unknownPort
  enabled : Bool := true
  deriving DecidableEq, Repr, Inhabited

namespace Host

/-- What `Host.equals` compares. -/
def key (host : Host) : Option JString × Int64 × Option JString :=
  (host.host, host.port, host.communityRead)

/-- `Host.equals`. -/
def equals (host other : Host) : Bool :=
  host.key == other.key

/-- `Host.hashCode`. -/
def hashCode (host : Host) : UInt32 :=
  31 * (31 * (31 * 1 + hashOf host.communityRead) + hashOf host.host) + longHashCode host.port

theorem hashCode_eq_of_equals {host other : Host} (h : host.equals other = true) :
    host.hashCode = other.hashCode := by
  have hkey : host.key = other.key := by simpa [equals] using h
  simp only [key, Prod.mk.injEq] at hkey
  rw [hashCode, hashCode, hkey.1, hkey.2.1, hkey.2.2]

end Host

/-! ## Lists of hosts -/

/-- The fields of a `HostListEntry` that the code reads.  The hosts are
references into the heap. -/
structure HostListEntry where
  id : Option Int64 := none
  port : Int64 := 161
  communityRead : Option JString := some (utf16 "public")
  hosts : Option (List Ref) := none
  deriving DecidableEq, Repr

/-- The `Host` objects. -/
abbrev HostHeap := Ref → Host

/-- The writes of `getHosts` to one host: the port and the community of the
list, where the host has none of its own. -/
def Host.complete (host : Host) (entry : HostListEntry) : Host :=
  { host with
    port := if host.port = unknownPort then entry.port else host.port
    communityRead :=
      if host.communityRead = none then entry.communityRead else host.communityRead }

/-- The heap after `getHosts` completed one host in place. -/
def HostHeap.completeAt (heap : HostHeap) (entry : HostListEntry) (ref : Ref) : HostHeap :=
  Function.update heap ref ((heap ref).complete entry)

/-- The state of the loop in `getHosts`: the heap and the set. -/
structure HostSelection where
  heap : HostHeap
  hosts : LinkedHashSet Ref := []

/-- The body of the inner loop of `getHosts`. -/
def HostSelection.visit (entry : HostListEntry) (selection : HostSelection) (ref : Ref) :
    HostSelection :=
  if (selection.heap ref).enabled then
    let heap := selection.heap.completeAt entry ref
    { heap := heap
      hosts := selection.hosts.add (fun r => (heap r).hashCode)
        (fun r s => (heap r).equals (heap s)) ref }
  else selection

/-- `ids.contains(entry.getId())`. -/
def HostListEntry.listedIn (ids : List Int64) (entry : HostListEntry) : Bool :=
  entry.id.any ids.contains

/-- `HostLists.getHosts`: the hosts, and the heap it leaves. -/
def getHosts (hostLists : Option (List HostListEntry)) (ids : List Int64) (heap : HostHeap) :
    Except Throwable (List Ref × HostHeap) := do
  let entries ← deref hostLists
  let selection ← entries.foldlM (fun selection entry =>
    if entry.listedIn ids then
      (deref entry.hosts).map fun hosts => hosts.foldl (HostSelection.visit entry) selection
    else .ok selection) { heap := heap }
  return (selection.hosts.toList, selection.heap)

/-- The hosts that `getHosts` visits, each with its list. -/
def visitedHosts (entries : List HostListEntry) (ids : List Int64) : List (HostListEntry × Ref) :=
  visits (HostListEntry.listedIn ids) HostListEntry.hosts entries

/-- The lists that `getHosts` reads are not `null`. -/
abbrev HostsPresent (entries : List HostListEntry) (ids : List Int64) : Prop :=
  Present (HostListEntry.listedIn ids) HostListEntry.hosts entries

/-- The loop of `getHosts` over the visited hosts. -/
def selectHosts (entries : List HostListEntry) (ids : List Int64) (heap : HostHeap) :
    HostSelection :=
  (visitedHosts entries ids).foldl (fun selection visit => selection.visit visit.1 visit.2)
    { heap := heap }

/-- `getHosts` throws exactly when a list it needs is `null`. -/
theorem getHosts_eq_selectHosts (entries : List HostListEntry) (ids : List Int64)
    (heap : HostHeap) :
    getHosts (some entries) ids heap =
      if HostsPresent entries ids then
        .ok ((selectHosts entries ids heap).hosts.toList, (selectHosts entries ids heap).heap)
      else .error .nullPointer := by
  rw [getHosts, deref_some, ok_bind, foldlM_nested]
  by_cases h : HostsPresent entries ids
  · rw [if_pos h, if_pos h]
    rfl
  · rw [if_neg h, if_neg h]
    rfl

/-! ## Completion -/

/-- A completed host stays as it is: what it took from the list it would take
again. -/
theorem Host.complete_complete (host : Host) (entry : HostListEntry) :
    (host.complete entry).complete entry = host.complete entry := by
  simp only [complete, Host.mk.injEq, true_and, and_true]
  constructor
  · split
    · exact ite_self entry.communityRead
    · rfl
  · split
    · exact ite_self entry.port
    · rfl

/-- The host belongs to the list. -/
def HostListEntry.holds (entry : HostListEntry) (ref : Ref) : Bool :=
  entry.hosts.any fun hosts => hosts.contains ref

/-- No host belongs to two lists, as decoding makes a new object for every
host of every list. -/
def OwnedHosts (entries : List HostListEntry) : Prop :=
  ∀ entry ∈ entries, ∀ other ∈ entries, ∀ ref,
    entry.holds ref = true → other.holds ref = true → entry = other

/-- The hosts with all inherited values written. -/
def settle (entries : List HostListEntry) (decoded : HostHeap) : HostHeap := fun ref =>
  match entries.find? fun entry => entry.holds ref with
  | some entry => (decoded ref).complete entry
  | none => decoded ref

theorem settle_eq {entries : List HostListEntry} (howned : OwnedHosts entries)
    (decoded : HostHeap) {entry : HostListEntry} (hentry : entry ∈ entries) {ref : Ref}
    (hholds : entry.holds ref = true) :
    settle entries decoded ref = (decoded ref).complete entry := by
  unfold settle
  split
  · rename_i other hfind
    have hsame : other = entry :=
      howned other (List.mem_of_find?_eq_some hfind) entry hentry ref
        (by simpa using List.find?_some hfind) hholds
    rw [hsame]
  · rename_i hfind
    exact absurd hholds (by simpa using List.find?_eq_none.mp hfind entry hentry)

/-- Every host is as it was decoded, or completed. -/
def Settling (entries : List HostListEntry) (decoded heap : HostHeap) : Prop :=
  ∀ ref, heap ref = decoded ref ∨ heap ref = settle entries decoded ref

theorem settle_enabled (entries : List HostListEntry) (decoded : HostHeap) (ref : Ref) :
    (settle entries decoded ref).enabled = (decoded ref).enabled := by
  unfold settle
  split <;> rfl

theorem Settling.enabled {entries : List HostListEntry} {decoded heap : HostHeap}
    (h : Settling entries decoded heap) (ref : Ref) :
    (heap ref).enabled = (decoded ref).enabled := by
  rcases h ref with h | h
  · rw [h]
  · rw [h, settle_enabled]

/-- Whether a host was completed before or not, its list completes it to the
same host. -/
theorem Settling.complete {entries : List HostListEntry} (howned : OwnedHosts entries)
    {decoded heap : HostHeap} (h : Settling entries decoded heap) {entry : HostListEntry}
    (hentry : entry ∈ entries) {ref : Ref} (hholds : entry.holds ref = true) :
    (heap ref).complete entry = settle entries decoded ref := by
  rw [settle_eq howned decoded hentry hholds]
  rcases h ref with h | h
  · rw [h]
  · rw [h, settle_eq howned decoded hentry hholds, Host.complete_complete]

theorem Settling.completeAt_apply {entries : List HostListEntry} (howned : OwnedHosts entries)
    {decoded heap : HostHeap} (h : Settling entries decoded heap) {entry : HostListEntry}
    (hentry : entry ∈ entries) {ref : Ref} (hholds : entry.holds ref = true) (other : Ref) :
    heap.completeAt entry ref other =
      if other = ref then settle entries decoded ref else heap other := by
  rw [HostHeap.completeAt, h.complete howned hentry hholds, Function.update_apply]

theorem Settling.completeAt {entries : List HostListEntry} (howned : OwnedHosts entries)
    {decoded heap : HostHeap} (h : Settling entries decoded heap) {entry : HostListEntry}
    (hentry : entry ∈ entries) {ref : Ref} (hholds : entry.holds ref = true) :
    Settling entries decoded (heap.completeAt entry ref) := by
  intro other
  rw [h.completeAt_apply howned hentry hholds]
  split
  · rename_i hother
    exact Or.inr (hother ▸ rfl)
  · exact h other

/-! ## The loop -/

/-- The hosts of a list of visits that are enabled. -/
def enabledHosts (decoded : HostHeap) (visited : List (HostListEntry × Ref)) : List Ref :=
  (visited.filter fun visit => (decoded visit.2).enabled).map Prod.snd

/-- The members that the set has when its functions read the completed
hosts. -/
def settledSet (entries : List HostListEntry) (decoded : HostHeap) (refs : List Ref) :
    LinkedHashSet Ref :=
  refs.foldl (LinkedHashSet.add (fun ref => (settle entries decoded ref).hashCode)
    (fun ref other => (settle entries decoded ref).equals (settle entries decoded other))) []

theorem settledSet_toList (entries : List HostListEntry) (decoded : HostHeap) (refs : List Ref) :
    (settledSet entries decoded refs).toList =
      refs.eraseDupsBy fun ref other =>
        (settle entries decoded ref).key == (settle entries decoded other).key :=
  LinkedHashSet.addAll_elements (fun _ _ h => Host.hashCode_eq_of_equals h) refs

/-- What the loop of `getHosts` keeps: the visited hosts are completed, and the
set is as if they had been so from the start. -/
structure HostsSelected (entries : List HostListEntry) (decoded : HostHeap)
    (visited : List (HostListEntry × Ref)) (selection : HostSelection) : Prop where
  settling : Settling entries decoded selection.heap
  settled : ∀ ref ∈ enabledHosts decoded visited, selection.heap ref = settle entries decoded ref
  hosts : selection.hosts = settledSet entries decoded (enabledHosts decoded visited)

theorem hostsSelected_visit {entries : List HostListEntry} (howned : OwnedHosts entries)
    {decoded : HostHeap} {visited : List (HostListEntry × Ref)} {selection : HostSelection}
    (h : HostsSelected entries decoded visited selection) {entry : HostListEntry}
    (hentry : entry ∈ entries) {ref : Ref} (hholds : entry.holds ref = true) :
    HostsSelected entries decoded (visited ++ [(entry, ref)]) (selection.visit entry ref) := by
  have henabled := h.settling.enabled ref
  unfold HostSelection.visit
  split
  · rename_i hon
    rw [henabled] at hon
    have hvisited : enabledHosts decoded (visited ++ [(entry, ref)]) =
        enabledHosts decoded visited ++ [ref] := by
      simp [enabledHosts, hon]
    have happly := h.settling.completeAt_apply howned hentry hholds
    have hheap : ∀ r ∈ enabledHosts decoded visited ++ [ref],
        selection.heap.completeAt entry ref r = settle entries decoded r := by
      intro r hr
      rw [happly]
      split
      · rename_i hrr
        rw [hrr]
      · rename_i hrr
        exact h.settled r ((List.mem_append.mp hr).resolve_right (by simpa using hrr))
    refine ⟨h.settling.completeAt howned hentry hholds, hvisited ▸ hheap, ?_⟩
    rw [hvisited, settledSet, List.foldl_append, ← settledSet, ← h.hosts]
    refine LinkedHashSet.add_congr ?_ ?_
    · rw [hheap ref (by simp)]
    · intro member hmember
      have hold : member.element ∈ enabledHosts decoded visited := by
        have hset : member.element ∈
            (settledSet entries decoded (enabledHosts decoded visited)).toList := by
          rw [← h.hosts]
          exact List.mem_map_of_mem hmember
        rw [settledSet_toList] at hset
        exact mem_of_mem_eraseDupsBy hset
      rw [hheap ref (by simp), hheap member.element (List.mem_append_left _ hold)]
  · rename_i hoff
    rw [henabled] at hoff
    have hvisited : enabledHosts decoded (visited ++ [(entry, ref)]) =
        enabledHosts decoded visited := by
      simp [enabledHosts, hoff]
    exact ⟨h.settling, hvisited ▸ h.settled, hvisited ▸ h.hosts⟩

theorem mem_visitedHosts {entries : List HostListEntry} {ids : List Int64}
    {visit : HostListEntry × Ref} (h : visit ∈ visitedHosts entries ids) :
    visit.1 ∈ entries ∧ visit.1.holds visit.2 = true := by
  obtain ⟨hentry, _, hosts, hhosts, href⟩ := mem_visits.mp h
  refine ⟨hentry, ?_⟩
  simp [HostListEntry.holds, hhosts, href]

/-- The loop of `getHosts`, from a heap in which any hosts were completed
before. -/
theorem hostsSelected_selectHosts {entries : List HostListEntry} (howned : OwnedHosts entries)
    {decoded heap : HostHeap} (h : Settling entries decoded heap) (ids : List Int64) :
    HostsSelected entries decoded (visitedHosts entries ids) (selectHosts entries ids heap) := by
  unfold selectHosts
  have hmem : ∀ visit ∈ visitedHosts entries ids,
      visit.1 ∈ entries ∧ visit.1.holds visit.2 = true := fun visit => mem_visitedHosts
  revert hmem
  generalize visitedHosts entries ids = visited
  intro hmem
  induction visited using List.reverseRecOn with
  | nil => exact ⟨h, by simp [enabledHosts], rfl⟩
  | append_singleton visited visit ih =>
    rw [List.foldl_append, List.foldl_cons, List.foldl_nil]
    obtain ⟨hentry, hholds⟩ := hmem visit (by simp)
    exact hostsSelected_visit howned
      (ih fun visit hvisit => hmem visit (List.mem_append_left _ hvisit)) hentry hholds

/-! ## Without the ownership

Whether a host is selected at all depends on the `enabled` fields only, which
nobody writes. -/

theorem visit_enabled (selection : HostSelection) (entry : HostListEntry) (ref other : Ref) :
    ((selection.visit entry ref).heap other).enabled = (selection.heap other).enabled := by
  unfold HostSelection.visit
  split
  · simp only [HostHeap.completeAt, Function.update_apply]
    split
    · rename_i hother
      rw [hother]
      rfl
    · rfl
  · rfl

theorem visit_hosts_ne_nil (selection : HostSelection) (entry : HostListEntry) (ref : Ref) :
    (selection.visit entry ref).hosts ≠ [] ↔
      selection.hosts ≠ [] ∨ (selection.heap ref).enabled = true := by
  unfold HostSelection.visit LinkedHashSet.add
  split
  · rename_i hon
    simp only [hon, or_true, iff_true]
    split
    · rename_i hfound
      intro hnil
      rw [hnil] at hfound
      cases hfound
    · simp
  · rename_i hoff
    simp [hoff]

/-- `getHosts` finds a host exactly when it visits an enabled one, and leaves
the `enabled` fields alone. -/
theorem selectHosts_enabled (entries : List HostListEntry) (ids : List Int64) (heap : HostHeap) :
    (∀ ref, ((selectHosts entries ids heap).heap ref).enabled = (heap ref).enabled) ∧
      ((selectHosts entries ids heap).hosts ≠ [] ↔
        ∃ visit ∈ visitedHosts entries ids, (heap visit.2).enabled = true) := by
  unfold selectHosts
  induction visitedHosts entries ids using List.reverseRecOn with
  | nil => simp
  | append_singleton visited visit ih =>
    rw [List.foldl_append, List.foldl_cons, List.foldl_nil]
    refine ⟨fun ref => by rw [visit_enabled, ih.1], ?_⟩
    rw [visit_hosts_ne_nil, ih.1, ih.2]
    simp [or_and_right, exists_or]

end BoundaryEventSdk.Snmp
