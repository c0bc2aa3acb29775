import Mathlib.Data.List.Induction
import Lightpath.Proofs.OrderedMap
import Lightpath.Proofs.Site.Confined
import Lightpath.Proofs.Text.Order
import Lightpath.Proofs.Topology.PointText

/-!
# Links that are stored

A link is stored under an id and entered for both of its devices. When another link is stored under
the same id, it takes the place of the first one, but the id stays entered for the devices of both.
Main statement: a device is told the present links of all ids under which one of its links was ever
stored, and these are the links that touch it exactly when none of these ids has moved away
(`exec_deviceLinks_stored`).
-/

namespace Lightpath.LinkStore

open Lightpath.Site Lightpath.Topology

/-! ## Histories -/

/-- Links and the ids under which they were stored, first stored first. -/
abbrev Stored := List (String × Link)

namespace Stored

/-- The link that stands under an id: of two that were stored the later counts. -/
def current? (h : Stored) (id : String) : Option Link :=
  (h.reverse.find? fun p => p.1 = id).map Prod.snd

/-- A link of a device was stored under an id. -/
def Entered (h : Stored) (device id : String) : Prop :=
  ∃ l, (id, l) ∈ h ∧ l.touches device = true

/-- The link that stands under an id is one of a device. -/
def Touching (h : Stored) (device id : String) : Prop :=
  ∃ l, h.current? id = some l ∧ l.touches device = true

/-- **Some links are those that stand under the ids with a property**, each id once, in ascending
order of the ids. -/
def Lists (h : Stored) (P : String → Prop) (links : List Link) : Prop :=
  ∃ ids : List String,
    ids.Pairwise (· < ·) ∧ (∀ id, id ∈ ids ↔ P id) ∧ ids.map h.current? = links.map some

variable {h : Stored} {id device : String} {l : Link}

/-- The link that is stored last under a name is the current one. -/
theorem current?_append_singleton (h : Stored) (p : String × Link) (id : String) :
    (h ++ [p]).current? id = if p.1 = id then some p.2 else h.current? id := by
  rw [current?, List.reverse_append, List.reverse_singleton, List.singleton_append, List.find?_cons]
  by_cases hp : p.1 = id
  · simp [hp]
  · simp [hp, current?]

/-- The current link of a name has been stored under it. -/
theorem mem_of_current? (hl : h.current? id = some l) : (id, l) ∈ h := by
  obtain ⟨p, hp, rfl⟩ := Option.map_eq_some_iff.mp hl
  obtain rfl : p.1 = id := by simpa using List.find?_some hp
  exact List.mem_reverse.mp (List.mem_of_find?_eq_some hp)

/-- Under an id that a link was stored under there is one. -/
theorem exists_current? (hl : (id, l) ∈ h) : ∃ m, h.current? id = some m := by
  have hfound : (h.reverse.find? fun p => p.1 = id).isSome = true :=
    List.find?_isSome.mpr ⟨(id, l), List.mem_reverse.mpr hl, by simp⟩
  obtain ⟨p, hp⟩ := Option.isSome_iff_exists.mp hfound
  exact ⟨p.2, Option.map_eq_some_iff.mpr ⟨p, hp, rfl⟩⟩

/-- A link that touches a device has been entered for it. -/
theorem Touching.entered (ht : h.Touching device id) : h.Entered device id := by
  obtain ⟨l, hl, htouches⟩ := ht
  exact ⟨l, mem_of_current? hl, htouches⟩

/-- **The links of the ids that were entered for a device are the links that touch it just when no
such id has moved away.** -/
theorem Lists.touching_iff {links : List Link} (hl : h.Lists (h.Entered device) links) :
    h.Lists (h.Touching device) links ↔ ∀ id, h.Entered device id → h.Touching device id := by
  obtain ⟨ids, hascend, hmem, hlinks⟩ := hl
  constructor
  · rintro ⟨now, -, hnow, hlinks'⟩ id hentered
    -- the link under the id is listed, so it is the link of an id that touches the device
    have hlisted : h.current? id ∈ now.map h.current? := by
      rw [hlinks', ← hlinks]
      exact List.mem_map_of_mem ((hmem id).mpr hentered)
    obtain ⟨id', hid', hsame⟩ := List.mem_map.mp hlisted
    obtain ⟨l, hl, htouches⟩ := (hnow id').mp hid'
    exact ⟨l, hsame ▸ hl, htouches⟩
  · intro hstays
    exact ⟨ids, hascend, fun id => (hmem id).trans ⟨hstays id, Touching.entered⟩, hlinks⟩

end Stored

/-! ## One link -/

namespace Records

/-- The ids in the set of a device. -/
def members (r : Records) (device : String) : List String :=
  (OrderedMap.get? r.sets (setKey device)).getD []

variable {r : Records} {id : String} {l : Link}

/-- Different devices have different sets, -/
theorem setKey_injective {a b : String} (h : setKey a = setKey b) : a = b :=
  String.append_right_inj _ |>.mp h

/-- and different links different records. -/
theorem hashKey_injective {a b : String} (h : hashKey a = hashKey b) : a = b :=
  String.append_right_inj _ |>.mp h

/-- A member that is added to a set changes no record, -/
theorem hashes_addMember (r : Records) (key member : String) :
    (r.addMember key member).hashes = r.hashes := by
  rw [addMember]
  split <;> rfl

/-- A member that is put into the set of a device is in it, and nothing else changes. -/
theorem mem_members_addMember (r : Records) (device id : String) {device' id' : String} :
    id' ∈ (r.addMember (setKey device) id).members device'
      ↔ id' ∈ r.members device' ∨ device = device' ∧ id' = id := by
  rw [addMember]
  simp only [List.contains_iff_mem]
  by_cases hin : id ∈ (OrderedMap.get? r.sets (setKey device)).getD []
  · rw [if_pos hin]
    refine ⟨Or.inl, ?_⟩
    rintro (h | ⟨rfl, rfl⟩)
    · exact h
    · exact hin
  · rw [if_neg hin]
    by_cases hdevice : device = device'
    · subst hdevice
      simp [members, OrderedMap.get?_put_self]
    · have hkey : setKey device ≠ setKey device' := fun h => hdevice (setKey_injective h)
      simp [members, OrderedMap.get?_put_of_ne _ _ hkey, hdevice]

/-- and fields that are put into a record change no set. -/
theorem members_putFields (r : Records) (key : String) (fields : List (String × String))
    (device : String) : (r.putFields key fields).members device = r.members device := rfl

/-- A link is entered for the devices that it touches. -/
theorem mem_members_addLink (r : Records) (id : String) (l : Link) {device id' : String} :
    id' ∈ (r.addLink id l).members device
      ↔ id' ∈ r.members device ∨ l.touches device = true ∧ id' = id := by
  have htouches : l.touches device = true ↔ l.src.device = device ∨ l.dst.device = device := by
    rw [Link.touches, Bool.or_eq_true, beq_iff_eq, beq_iff_eq]
  rw [addLink, mem_members_addMember, mem_members_addMember, members_putFields, htouches, or_and_right,
    or_assoc]

theorem hashes_addLink (r : Records) (id : String) (l : Link) :
    (r.addLink id l).hashes = (r.putFields (hashKey id) (fieldsOf l)).hashes := by
  rw [addLink, hashes_addMember, hashes_addMember]

/-- A hash that gets the fields of a link is read as this link, whatever stood there before. -/
theorem linkOf?_fields (hl : l.Writable) (old : OrderedMap String String) :
    linkOf? ((fieldsOf l).foldl (fun h f => OrderedMap.put h f.1 f.2) old) = some l := by
  have hsrc : OrderedMap.get? ((fieldsOf l).foldl (fun h f => OrderedMap.put h f.1 f.2) old) "src"
      = some l.src.text := by
    show OrderedMap.get? (OrderedMap.put (OrderedMap.put old "src" l.src.text) "dst" l.dst.text) "src"
      = _
    rw [OrderedMap.get?_put_of_ne _ _ (by decide), OrderedMap.get?_put_self]
  have hdst : OrderedMap.get? ((fieldsOf l).foldl (fun h f => OrderedMap.put h f.1 f.2) old) "dst"
      = some l.dst.text :=
    OrderedMap.get?_put_self _ _ _
  rw [linkOf?, hsrc, hdst]
  simp only
  rw [ConnectPoint.parse_text hl.src, ConnectPoint.parse_text hl.dst]

/-- **A link is found under its id**, also when another one stood there. -/
theorem finding_addLink_self (hl : l.Writable) (r : Records) (id : String) :
    (r.addLink id l).finding id = .link l := by
  have hlink := linkOf?_fields hl ((OrderedMap.get? r.hashes (hashKey id)).getD [])
  rw [finding, hashes_addLink, putFields, OrderedMap.get?_put_self]
  cases hhash : (fieldsOf l).foldl (fun h f => OrderedMap.put h f.1 f.2)
      ((OrderedMap.get? r.hashes (hashKey id)).getD []) with
  | nil =>
    rw [hhash] at hlink
    exact absurd hlink (by simp [linkOf?])
  | cons f rest =>
    rw [hhash] at hlink
    simp only [hlink]

/-- Storing a link does not change what is found under another name. -/
theorem finding_addLink_of_ne (r : Records) (l : Link) {id' : String} (h : id ≠ id') :
    (r.addLink id l).finding id' = r.finding id' := by
  have hkey : hashKey id ≠ hashKey id' := fun heq => h (hashKey_injective heq)
  rw [finding, finding, hashes_addLink, putFields, OrderedMap.get?_put_of_ne _ _ hkey]

/-! ## Whole histories -/

/-- The database after some links have been stored in an empty one. -/
def ofStored (h : Stored) : Records :=
  h.foldl (fun r p => r.addLink p.1 p.2) empty

variable {h : Stored}

/-- The last link is added to the records of those before. -/
theorem ofStored_append_singleton (h : Stored) (p : String × Link) :
    ofStored (h ++ [p]) = (ofStored h).addLink p.1 p.2 := by
  rw [ofStored, List.foldl_append]
  rfl

/-- What is found under an id is the link that stands there. -/
theorem link?_finding_ofStored (hl : ∀ p ∈ h, p.2.Writable) (id : String) :
    ((ofStored h).finding id).link? = h.current? id := by
  induction h using List.reverseRecOn with
  | nil => rfl
  | append_singleton h p ih =>
    rw [ofStored_append_singleton, Stored.current?_append_singleton]
    by_cases hp : p.1 = id
    · subst hp
      rw [finding_addLink_self (hl p (by simp)), if_pos rfl, Finding.link?]
    · rw [finding_addLink_of_ne _ _ hp, if_neg hp]
      exact ih fun q hq => hl q (List.mem_append_left [p] hq)

/-- An id stays entered for every device that a link under it has touched. -/
theorem mem_members_ofStored {device : String} :
    id ∈ (ofStored h).members device ↔ h.Entered device id := by
  induction h using List.reverseRecOn with
  | nil => exact ⟨fun hid => absurd hid List.not_mem_nil, fun ⟨_, hl, _⟩ => absurd hl List.not_mem_nil⟩
  | append_singleton h p ih =>
    rw [ofStored_append_singleton, mem_members_addLink, ih]
    constructor
    · rintro (⟨l, hl, htouches⟩ | ⟨htouches, rfl⟩)
      · exact ⟨l, List.mem_append_left [p] hl, htouches⟩
      · exact ⟨p.2, by simp, htouches⟩
    · rintro ⟨l, hl, htouches⟩
      rcases List.mem_append.mp hl with hl | hl
      · exact Or.inl ⟨l, hl, htouches⟩
      · obtain rfl := List.mem_singleton.mp hl
        exact Or.inr ⟨htouches, rfl⟩

theorem map_some_filterMap {α β : Type} {f : α → Option β} {xs : List α}
    (h : ∀ x ∈ xs, (f x).isSome = true) : (xs.filterMap f).map some = xs.map f := by
  induction xs with
  | nil => rfl
  | cons x xs ih =>
    obtain ⟨y, hy⟩ := Option.isSome_iff_exists.mp (h x List.mem_cons_self)
    rw [List.filterMap_cons, hy, List.map_cons, List.map_cons, hy,
      ih fun z hz => h z (List.mem_cons_of_mem x hz)]

/-- The links that are told of a device are those of the ids that were entered for it. -/
theorem lists_linksOf_ofStored (hl : ∀ p ∈ h, p.2.Writable) (device : String) :
    h.Lists (h.Entered device) ((ofStored h).linksOf device) := by
  refine ⟨(ofStored h).idsOf device, Text.pairwise_sortedOnce _, fun id => ?_, ?_⟩
  · rw [idsOf, Text.mem_sortedOnce, ← mem_members_ofStored]
    rfl
  · have hsome : ∀ id ∈ (ofStored h).idsOf device, (h.current? id).isSome = true := by
      intro id hid
      rw [idsOf, Text.mem_sortedOnce] at hid
      obtain ⟨l, hl, -⟩ := mem_members_ofStored.mp hid
      obtain ⟨m, hm⟩ := Stored.exists_current? hl
      rw [hm]
      rfl
    have hlinks : (ofStored h).linksOf device
        = ((ofStored h).idsOf device).filterMap h.current? := by
      rw [linksOf, findings, List.filterMap_map]
      exact List.filterMap_congr fun id _ => link?_finding_ofStored hl id
    rw [hlinks, map_some_filterMap hsome]

end Records

/-! ## Runs -/

/-- Stores some links one after the other. -/
def storeAll (h : Stored) : Act Unit :=
  h.forM fun p => addLink p.1 p.2

/-- Storing a link adds it to the records and never fails. -/
theorem exec_addLink (id : String) (l : Link) (s : State) :
    ∃ t, Act.exec (addLink id l) s = (.ok (), t) ∧ t.store = s.store.addLink id l :=
  ⟨_, rfl, rfl⟩

/-- Links are stored one after the other. -/
theorem exec_storeAll (h : Stored) (s : State) :
    ∃ t, Act.exec (storeAll h) s = (.ok (), t) ∧
      t.store = h.foldl (fun r p => r.addLink p.1 p.2) s.store := by
  induction h generalizing s with
  | nil => exact ⟨s, rfl, rfl⟩
  | cons p h ih =>
    obtain ⟨t, hadd, hstore⟩ := exec_addLink p.1 p.2 s
    obtain ⟨u, hrest, hrestStore⟩ := ih t
    refine ⟨u, ?_, by rw [hrestStore, hstore, List.foldl_cons]⟩
    show Act.exec (addLink p.1 p.2 >>= fun _ => storeAll h) s = _
    rw [exec_bind_ok hadd, hrest]

/-- **A device is told the links of the ids that were ever entered for it.** Let any links be stored
in an empty database, under any ids, also under one id again and again. Then the links of a device
are the last links that were stored under the ids under which one of its links was ever stored, each
id once, in ascending order. They are the links now stored that start or end on the device exactly
when the link under each of these ids still does. -/
theorem exec_deviceLinks_stored {h : Stored} (hl : ∀ p ∈ h, p.2.Writable) {s : State}
    (hs : s.store = Records.empty) (device : String) :
    ∃ links t, Act.exec (do storeAll h; deviceLinks device) s = (.ok links, t) ∧
      h.Lists (h.Entered device) links ∧
      (h.Lists (h.Touching device) links ↔ ∀ id, h.Entered device id → h.Touching device id) := by
  obtain ⟨t, hstored, hstore⟩ := exec_storeAll h s
  obtain ⟨u, hlinks, -⟩ := exec_deviceLinks device t
  have hlists := Records.lists_linksOf_ofStored hl device
  rw [hs] at hstore
  refine ⟨(Records.ofStored h).linksOf device, u, ?_, hlists, hlists.touching_iff⟩
  rw [exec_bind_ok hstored, hlinks, hstore]
  rfl

/-! ## A link that moves -/

/-- A link between two devices, and another one under its id between two others. -/
def movedLink : Stored :=
  [("l1", ⟨⟨"a", 1⟩, ⟨"b", 1⟩⟩), ("l1", ⟨⟨"c", 1⟩, ⟨"d", 1⟩⟩)]

theorem writable_of_mem_movedLink : ∀ p ∈ movedLink, p.2.Writable := by
  intro p hp
  obtain rfl | rfl : p = ("l1", ⟨⟨"a", 1⟩, ⟨"b", 1⟩⟩) ∨ p = ("l1", ⟨⟨"c", 1⟩, ⟨"d", 1⟩⟩) := by
    simpa [movedLink] using hp
  all_goals exact ⟨⟨by decide, by unfold Numeral.Writable; decide⟩,
    ⟨by decide, by unfold Numeral.Writable; decide⟩⟩

/-- What the device is told that the link has moved away from. -/
theorem exec_deviceLinks_stored_movedLink :
    ∃ links t, Act.exec (do storeAll movedLink; deviceLinks "a") (State.ofDevices []) = (.ok links, t) ∧
      movedLink.Lists (movedLink.Entered "a") links ∧
      (movedLink.Lists (movedLink.Touching "a") links ↔
        ∀ id, movedLink.Entered "a" id → movedLink.Touching "a" id) :=
  exec_deviceLinks_stored writable_of_mem_movedLink rfl "a"

/-- **A device may be told a link of two others.** -/
theorem deviceLinks_of_movedLink :
    (Act.exec (do storeAll movedLink; deviceLinks "a") (State.ofDevices [])).1
        = .ok [⟨⟨"c", 1⟩, ⟨"d", 1⟩⟩] ∧
      ∀ l ∈ ([⟨⟨"c", 1⟩, ⟨"d", 1⟩⟩] : List Link), l.touches "a" = false := by
  refine ⟨?_, by decide⟩
  obtain ⟨t, hstored, hstore⟩ := exec_storeAll movedLink (State.ofDevices [])
  obtain ⟨u, hlinks, -⟩ := exec_deviceLinks "a" t
  have hids : (Records.ofStored movedLink).idsOf "a" = ["l1"] := by decide +kernel
  have hfound : ((Records.ofStored movedLink).finding "l1").link? = some ⟨⟨"c", 1⟩, ⟨"d", 1⟩⟩ := by
    rw [Records.link?_finding_ofStored writable_of_mem_movedLink]
    decide
  rw [exec_bind_ok hstored, hlinks, hstore]
  show Except.ok ((Records.ofStored movedLink).linksOf "a") = _
  rw [Records.linksOf, Records.findings, hids, List.map_singleton, List.filterMap_cons, hfound]
  rfl

end Lightpath.LinkStore
