import Mathlib.Data.List.Sort
import Lightpath.Proofs.LinkStore.Stored
import Lightpath.Proofs.PathPlan.Provision

/-!
# Looking links up

The links of a device are told in ascending order of the ids of their records, whatever the order in
which the database enumerates a set or the fields of a hash, and a record that cannot be read is left
out. So a look-up tells a list that its content alone decides (`Records.Listing`), and a record that
is added or spoilt moves no other one. Main statement: `lookUp_canonical`.
-/

namespace Lightpath.LinkStore

open Lightpath.Site Lightpath.Topology Lightpath.PathPlan

/-! ## Records -/

namespace Records

variable {r r' : Records} {device id : String} {l : Link} {P : String → Prop}

/-- The text of a field of the record of an id. -/
def field? (r : Records) (id name : String) : Option String :=
  (OrderedMap.get? r.hashes (hashKey id)).bind (OrderedMap.get? · name)

/-- The record of an id tells a link: it has the texts of both ends, and both can be read. -/
def Tells (r : Records) (id : String) (l : Link) : Prop :=
  ∃ src dst, r.field? id "src" = some src ∧ r.field? id "dst" = some dst ∧
    ConnectPoint.parse src = .ok l.src ∧ ConnectPoint.parse dst = .ok l.dst

/-- A record holds a link if both its ends can be read. -/
theorem linkOf?_eq_some_iff {hash : OrderedMap String String} :
    linkOf? hash = some l ↔ ∃ src dst, OrderedMap.get? hash "src" = some src ∧
      OrderedMap.get? hash "dst" = some dst ∧
      ConnectPoint.parse src = .ok l.src ∧ ConnectPoint.parse dst = .ok l.dst := by
  obtain ⟨a, b⟩ := l
  rw [linkOf?]
  cases OrderedMap.get? hash "src" with
  | none => simp
  | some src =>
    cases OrderedMap.get? hash "dst" with
    | none => simp
    | some dst =>
      simp only [Option.some.injEq, exists_and_left, exists_eq_left']
      cases ConnectPoint.parse src with
      | error f => simp
      | ok src =>
        cases ConnectPoint.parse dst with
        | error f => simp
        | ok dst => simp

/-- What is found under an id is the link that its record tells. -/
theorem link?_finding_eq_some_iff : (r.finding id).link? = some l ↔ r.Tells id l := by
  rw [finding, Tells]
  simp only [field?]
  cases OrderedMap.get? r.hashes (hashKey id) with
  | none => simp [Finding.link?]
  | some hash =>
    simp only [Option.bind_some, ← linkOf?_eq_some_iff]
    cases hash with
    | nil => simp [Finding.link?, linkOf?]
    | cons f rest =>
      cases hlink : linkOf? (f :: rest) with
      | none => simp [hlink, Finding.link?]
      | some m => simp [hlink, Finding.link?]

/-! ## Listings -/

/-- **Some links are those that the records of a device tell.** Each stands behind the id of its
record, and the ids ascend. -/
structure Listing (r : Records) (device : String) (entries : List (String × Link)) : Prop where
  ascends : entries.Pairwise fun a b => a.1 < b.1
  mem_iff : ∀ id l, (id, l) ∈ entries ↔ id ∈ r.members device ∧ r.Tells id l

/-- The links of a device behind the ids of their records. -/
def entries (r : Records) (device : String) : List (String × Link) :=
  (r.idsOf device).filterMap fun id => (r.finding id).link?.map (id, ·)

theorem linksOf_eq (r : Records) (device : String) :
    r.linksOf device = (r.entries device).map Prod.snd := by
  rw [linksOf, findings, entries, List.filterMap_map, List.map_filterMap]
  refine List.filterMap_congr fun id _ => ?_
  rw [Option.map_map]
  exact Option.map_id'.symm

/-- A link is among the entries of a device if it is a member and its record tells it. -/
theorem mem_entries : (id, l) ∈ r.entries device ↔ id ∈ r.members device ∧ r.Tells id l := by
  rw [entries, List.mem_filterMap, ← link?_finding_eq_some_iff]
  constructor
  · rintro ⟨id', hid', hfound⟩
    obtain ⟨m, hm, hpair⟩ := Option.map_eq_some_iff.mp hfound
    obtain ⟨rfl, rfl⟩ := Prod.mk.inj hpair
    exact ⟨Text.mem_sortedOnce.mp hid', hm⟩
  · rintro ⟨hid, hfound⟩
    exact ⟨id, Text.mem_sortedOnce.mpr hid, Option.map_eq_some_iff.mpr ⟨l, hfound, rfl⟩⟩

/-- The entries of a device are listed in the order of their names. -/
theorem listing_entries (r : Records) (device : String) : r.Listing device (r.entries device) where
  ascends := by
    refine List.pairwise_filterMap.mpr ((Text.pairwise_sortedOnce _).imp ?_)
    intro a b hab p hp q hq
    obtain ⟨-, -, rfl⟩ := Option.map_eq_some_iff.mp hp
    obtain ⟨-, -, rfl⟩ := Option.map_eq_some_iff.mp hq
    exact hab
  mem_iff := fun _ _ => mem_entries

/-! ## Databases that agree -/

/-- **Two databases agree on the ids with a property**: the same of them are in the set of each device,
and their records have the same fields. Members and fields may be enumerated in any order. -/
structure Agree (P : String → Prop) (r r' : Records) : Prop where
  members : ∀ device id, P id → (id ∈ r.members device ↔ id ∈ r'.members device)
  fields : ∀ id, P id → ∀ name, r.field? id name = r'.field? id name

/-- Records that agree on a link tell the same of it, -/
theorem Agree.tells_iff (h : Agree P r r') (hid : P id) : r.Tells id l ↔ r'.Tells id l := by
  rw [Tells, Tells, h.fields id hid, h.fields id hid]

/-- What a listing has of the ids on which two databases agree, a listing of the other one has too, in
the same order. -/
theorem Agree.filter_eq [DecidablePred P] (h : Agree P r r') {es fs : List (String × Link)}
    (hes : r.Listing device es) (hfs : r'.Listing device fs) :
    es.filter (fun e => P e.1) = fs.filter fun e => P e.1 := by
  have : Std.Irrefl fun a b : String × Link => a.1 < b.1 := ⟨fun a => String.lt_irrefl a.1⟩
  have : Std.Asymm fun a b : String × Link => a.1 < b.1 := ⟨fun a b => String.lt_asymm⟩
  refine (hes.ascends.filter _).eq_of_mem_iff (hfs.ascends.filter _) fun e => ?_
  obtain ⟨id, l⟩ := e
  rw [List.mem_filter, List.mem_filter, hes.mem_iff, hfs.mem_iff, decide_eq_true_eq]
  refine and_congr_left fun hid => ?_
  rw [h.members device id hid, h.tells_iff hid]

/-- Databases that agree on all ids have one listing of a device. -/
theorem Agree.eq_of_listing (h : Agree (fun _ => True) r r') {es fs : List (String × Link)}
    (hes : r.Listing device es) (hfs : r'.Listing device fs) : es = fs := by
  have hfilter := h.filter_eq hes hfs
  rwa [List.filter_eq_self.mpr fun _ _ => decide_eq_true trivial,
    List.filter_eq_self.mpr fun _ _ => decide_eq_true trivial] at hfilter

/-- and records that agree on all links have the same links for each device. -/
theorem Agree.linksOf_eq (h : Agree (fun _ => True) r r') : r.linksOf = r'.linksOf := by
  funext device
  rw [Records.linksOf_eq, Records.linksOf_eq,
    h.eq_of_listing (listing_entries r device) (listing_entries r' device)]

end Records

/-! ## Look-ups -/

/-- **A look-up at a site tells the links of some entries**, and these are what the records of the device
tell. -/
def LooksUp (s : State) (device : String) (entries : List (String × Link)) : Prop :=
  (∃ t, Act.exec (deviceLinks device) s = (.ok (entries.map Prod.snd), t)) ∧
    s.store.Listing device entries

variable {s t u : State}

/-- A look-up never fails. -/
theorem looksUp_entries (s : State) (device : String) : LooksUp s device (s.store.entries device) := by
  obtain ⟨t, hlinks, -⟩ := exec_deviceLinks device s
  rw [Records.linksOf_eq] at hlinks
  exact ⟨⟨t, hlinks⟩, Records.listing_entries s.store device⟩

/-- The links along some hops are those that the content of the database has for them: looking up one
hop changes nothing for the next. -/
theorem exec_linksAlong_deviceLinks {p : Planner} (hp : p.adjacency = deviceLinks)
    (hops : List (String × String)) (s : State) :
    ∃ t, Act.exec (p.linksAlong hops) s = (.ok (pathAlong s.store.linksOf hops).links, t) ∧
      Logs s t := by
  induction hops generalizing s with
  | nil => exact ⟨s, rfl, Logs.refl s⟩
  | cons hop rest ih =>
    obtain ⟨t, htold, hst⟩ := exec_deviceLinks hop.1 s
    -- the next hop is looked up in the same database, as a look-up only logs
    have hstore (u : State) (hsu : Logs s u) : u.store = s.store := by
      obtain ⟨lines, rfl⟩ := hsu
      rfl
    rw [Planner.linksAlong, hp, exec_bind_ok htold]
    cases hfound : linkFor? s.store.linksOf hop with
    | none =>
      obtain ⟨u, hwarn, htu⟩ :=
        onlyLogs_log .warning ("No link from " ++ hop.1 ++ " to " ++ hop.2) t
      obtain ⟨v, hrest, huv⟩ := ih u
      refine ⟨v, ?_, (hst.trans htu).trans huv⟩
      rw [linkFor?] at hfound
      simp only [hfound]
      rw [warn, exec_bind_ok hwarn, hrest, hstore u (hst.trans htu), pathAlong, pathAlong,
        List.filterMap_cons, linkFor?, hfound]
    | some l =>
      obtain ⟨u, hrest, htu⟩ := ih t
      refine ⟨u, ?_, hst.trans htu⟩
      rw [linkFor?] at hfound
      simp only [hfound]
      rw [exec_bind_ok hrest, hstore t hst, pathAlong, pathAlong, List.filterMap_cons, linkFor?, hfound]
      rfl

/-- **A look-up depends on the content of the database alone.** Let two databases hold the same, whatever
the order in which they enumerate it. Then each device is told the same links in both: those that its
records tell, in ascending order of their ids. When one record is added, spoilt or taken away, the links of
all others stay and keep their order. And a route is resolved to the same path in both databases. -/
theorem lookUp_canonical (h : Records.Agree (fun _ => True) s.store t.store) :
    (∀ device, ∃ entries, LooksUp s device entries ∧ LooksUp t device entries) ∧
      (∀ (u : State) (changed : String), Records.Agree (· ≠ changed) s.store u.store →
        ∀ device, ∃ before after, LooksUp s device before ∧ LooksUp u device after ∧
          before.filter (·.1 ≠ changed) = after.filter (·.1 ≠ changed)) ∧
      ∀ (p : Planner) (route : List String), p.adjacency = deviceLinks →
        ∃ v w, Act.exec (p.linksAlong (hops route)) s
            = (.ok (pathAlong s.store.linksOf (hops route)).links, v) ∧
          Act.exec (p.linksAlong (hops route)) t
            = (.ok (pathAlong s.store.linksOf (hops route)).links, w) := by
  refine ⟨fun device => ?_, fun u changed hu device => ?_, fun p route hp => ?_⟩
  · refine ⟨_, looksUp_entries s device, ?_⟩
    rw [h.eq_of_listing (Records.listing_entries s.store device)
      (Records.listing_entries t.store device)]
    exact looksUp_entries t device
  · exact ⟨_, _, looksUp_entries s device, looksUp_entries u device,
      hu.filter_eq (Records.listing_entries s.store device) (Records.listing_entries u.store device)⟩
  · obtain ⟨v, hv, -⟩ := exec_linksAlong_deviceLinks hp (hops route) s
    obtain ⟨w, hw, -⟩ := exec_linksAlong_deviceLinks hp (hops route) t
    rw [← h.linksOf_eq] at hw
    exact ⟨v, w, hv, hw⟩

/-! ## A spoilt record -/

/-- Two links of device `a`, an id without a record, and a record without a readable end. -/
def spoiltRecords (members : List String) : Records :=
  ⟨[(setKey "a", members)],
    [(hashKey "l1", [("src", "a/1"), ("dst", "b/1")]), (hashKey "l2", [("dst", "c/1"), ("src", "a/2")]),
      (hashKey "torn", [("src", "a/3"), ("dst", "d")])]⟩

theorem members_spoiltRecords (members : List String) (device : String) :
    (spoiltRecords members).members device = if device = "a" then members else [] := by
  rw [Records.members, spoiltRecords]
  by_cases hdevice : device = "a"
  · simp [OrderedMap.get?, hdevice]
  · have hkey : setKey "a" ≠ setKey device := fun h => hdevice (Records.setKey_injective h).symm
    simp [OrderedMap.get?, hdevice, hkey]

/-- In whatever order its members are enumerated, the content of this database is the same. -/
theorem agree_spoiltRecords (P : String → Prop) {members others : List String}
    (h : ∀ id, P id → (id ∈ members ↔ id ∈ others)) :
    Records.Agree P (spoiltRecords members) (spoiltRecords others) where
  members := by
    intro device id hid
    rw [members_spoiltRecords, members_spoiltRecords]
    split
    · exact h id hid
    · exact Iff.rfl
  fields := fun _ _ _ => rfl

/-- A site with this database. -/
def spoiltSite (members : List String) : State :=
  { State.ofDevices [] with store := spoiltRecords members }

/-- Two sites that differ in the order of the members of one set, and a third one that lacks a link. -/
theorem lookUp_canonical_spoilt :
    (∃ entries, LooksUp (spoiltSite ["l2", "torn", "l1", "gone"]) "a" entries ∧
        LooksUp (spoiltSite ["gone", "l1", "l2", "torn"]) "a" entries) ∧
      (∃ before after, LooksUp (spoiltSite ["l2", "torn", "l1", "gone"]) "a" before ∧
        LooksUp (spoiltSite ["gone", "torn", "l2"]) "a" after ∧
        before.filter (·.1 ≠ "l1") = after.filter (·.1 ≠ "l1")) ∧
      ∃ v w, Act.exec (Planner.notingPlanner.linksAlong (hops ["a", "b"]))
            (spoiltSite ["l2", "torn", "l1", "gone"])
          = (.ok (pathAlong (spoiltRecords ["l2", "torn", "l1", "gone"]).linksOf (hops ["a", "b"])).links,
              v) ∧
        Act.exec (Planner.notingPlanner.linksAlong (hops ["a", "b"]))
            (spoiltSite ["gone", "l1", "l2", "torn"])
          = (.ok (pathAlong (spoiltRecords ["l2", "torn", "l1", "gone"]).linksOf (hops ["a", "b"])).links,
              w) := by
  obtain ⟨hsame, hchanged, hpath⟩ :=
    lookUp_canonical (s := spoiltSite ["l2", "torn", "l1", "gone"])
      (t := spoiltSite ["gone", "l1", "l2", "torn"])
      (agree_spoiltRecords _ fun id _ => by simp only [List.mem_cons]; tauto)
  have hlacks : Records.Agree (· ≠ "l1") (spoiltSite ["l2", "torn", "l1", "gone"]).store
      (spoiltSite ["gone", "torn", "l2"]).store :=
    agree_spoiltRecords _ fun id hid => by simp only [List.mem_cons, hid]; tauto
  exact ⟨hsame "a", hchanged _ "l1" hlacks "a", hpath _ ["a", "b"] rfl⟩

/-- Only the two links are told, the one with the smaller id first. -/
example : (spoiltRecords ["l2", "torn", "l1", "gone"]).linksOf "a"
    = [⟨⟨"a", 1⟩, ⟨"b", 1⟩⟩, ⟨⟨"a", 2⟩, ⟨"c", 1⟩⟩] := by cbv

end Lightpath.LinkStore
