import CycloneTcp.Ip.GroupReports
import CycloneTcp.Lib.Runs

set_option autoImplicit false

/-! # Leaving groups

Which reports for a group have been heard since the interface joined it is kept beside a run. The
flag of an entry says that the last of them was the interface's own, when the reports of others are
counted only while the own report is pending: in the Idle state they are ignored. -/

namespace GroupReports

open Ipv6 (Ipv6Addr)
open Multicast (Ipv4Addr)

/-! ## Runs -/

inductive Event (A M G : Type*)
  | join (groupAddr : A) (accepted : Bool) (time : UInt32)
  | leave (groupAddr : A)
  | tick (time : UInt32)
  | linkChange (up : Bool) (time : UInt32)
  | query (message : M) (time : UInt32) (g : G)
  | report (message : M)
  deriving DecidableEq

/-- Who has sent a report. -/
inductive Speaker
  | host
  | other
  deriving DecidableEq

/-- An interface, and for each group the reports that have been heard since it was joined. -/
structure History (A : Type*) where
  interface : NetInterface A
  reports : A → List Speaker

section Runs

variable {A M G : Type*} [DecidableEq A]

/-- One event: the interface behind it, and the messages that are sent. -/
def step (p : Protocol A M) (netGetRand : G → UInt32 × G) (interface : NetInterface A) :
    Event A M G → NetInterface A × List (Sent A)
  | .join groupAddr accepted time => joinMulticastGroup p interface groupAddr accepted time
  | .leave groupAddr => leaveMulticastGroup p interface groupAddr
  | .tick time => tick p interface time
  | .linkChange up time => linkChangeEvent p interface up time
  | .query message time g => ((processQuery p netGetRand interface message time g).1, [])
  | .report message => (processReport p interface message, [])

/-- The group has an entry. -/
def InUse (groupAddr : A) (filter : List (FilterEntry A)) : Prop :=
  ∃ e ∈ filter, 0 < e.refCount ∧ e.addr = groupAddr

instance (groupAddr : A) (filter : List (FilterEntry A)) : Decidable (InUse groupAddr filter) :=
  inferInstanceAs (Decidable (∃ e ∈ filter, _))

/-- The group's own report is pending. -/
def Pending (groupAddr : A) (filter : List (FilterEntry A)) : Prop :=
  ∃ e ∈ filter, 0 < e.refCount ∧ e.addr = groupAddr ∧ e.state = .delayingMember

instance (groupAddr : A) (filter : List (FilterEntry A)) : Decidable (Pending groupAddr filter) :=
  inferInstanceAs (Decidable (∃ e ∈ filter, _))

/-- The messages contain a report for the group. -/
def Reports (groupAddr : A) (sent : List (Sent A)) : Prop :=
  .report true groupAddr ∈ sent ∨ .report false groupAddr ∈ sent

instance (groupAddr : A) (sent : List (Sent A)) : Decidable (Reports groupAddr sent) :=
  inferInstanceAs (Decidable (_ ∨ _))

/-- The event is a report for the group. -/
def Event.Reported (p : Protocol A M) (groupAddr : A) : Event A M G → Prop
  | .report message => p.reported message = some groupAddr
  | _ => False

instance (p : Protocol A M) (groupAddr : A) (event : Event A M G) :
    Decidable (event.Reported p groupAddr) :=
  match event with
  | .report message => inferInstanceAs (Decidable (p.reported message = some groupAddr))
  | .join .. | .leave .. | .tick .. | .linkChange .. | .query .. => .isFalse id

/-- The reports for a group that an event adds. `counts` says when a report of another host does. -/
def heard (p : Protocol A M) (counts : A → List (FilterEntry A) → Bool)
    (filter : List (FilterEntry A)) (event : Event A M G) (sent : List (Sent A)) (groupAddr : A) :
    List Speaker :=
  (if event.Reported p groupAddr ∧ counts groupAddr filter then [.other] else []) ++
    if Reports groupAddr sent then [.host] else []

/-- One event, with the reports. Those for a group that is not joined any more are forgotten. -/
def historyStep (p : Protocol A M) (netGetRand : G → UInt32 × G)
    (counts : A → List (FilterEntry A) → Bool) (s : History A) (event : Event A M G) : History A :=
  let (interface, sent) := step p netGetRand s.interface event
  { interface := interface
    reports := fun groupAddr =>
      if InUse groupAddr interface.multicastFilter then
        s.reports groupAddr ++ heard p counts s.interface.multicastFilter event sent groupAddr
      else [] }

theorem notMember_of_unused : (0 : ℕ) ≠ 0 → HostState.nonMember ≠ .nonMember :=
  absurd rfl

/-- An interface that has joined no group, with room for `size` groups. -/
def start (p : Protocol A M) (size : ℕ) (timer : UInt32) : History A :=
  { interface :=
      { linkState := false, igmpv1RouterPresent := false, igmpv1RouterPresentTimer := timer
        multicastFilter := List.replicate size
          { addr := p.unspecifiedAddr, refCount := 0, state := .nonMember, flag := false, timer := 0
            member := notMember_of_unused } }
    reports := fun _ => [] }

end Runs

/-! ## The invariant -/

section Invariant

variable {A M G : Type*} [DecidableEq A] {p : Protocol A M} {s : History A}

/-- The flag of a group is set, while the link is up, if and only if the last report was the
interface's own. The group of all nodes is never reported. -/
structure Good (p : Protocol A M) (s : History A) : Prop where
  distinct : RefTable.Distinct (s.interface.multicastFilter.map FilterEntry.toRefEntry)
  multicast : ∀ e ∈ s.interface.multicastFilter, 0 < e.refCount → p.isMulticastAddr e.addr = true
  special : ∀ e ∈ s.interface.multicastFilter, 0 < e.refCount → e.addr = p.allNodesAddr →
    e.flag = false ∧ e.state = .idleMember
  quiet : Speaker.host ∉ s.reports p.allNodesAddr
  last : s.interface.linkState = true → ∀ e ∈ s.interface.multicastFilter, 0 < e.refCount →
    e.addr ≠ p.allNodesAddr → (e.flag = true ↔ (s.reports e.addr).getLast? = some .host)

/-- Entries in use with the same address are the same. -/
theorem Good.unique (h : Good p s) {d e : FilterEntry A} (hd : d ∈ s.interface.multicastFilter)
    (he : e ∈ s.interface.multicastFilter) (hdpos : 0 < d.refCount) (hpos : 0 < e.refCount)
    (haddr : d.addr = e.addr) : d = e := by
  by_contra hne
  have hsymm : Std.Symm fun a b : FilterEntry A =>
      0 < a.refCount → 0 < b.refCount → a.addr ≠ b.addr :=
    ⟨fun _ _ hab hb ha => (hab ha hb).symm⟩
  exact (List.pairwise_map.1 h.distinct).forall hd he hne hdpos hpos haddr

/-- An event that changes entries in place and neither their addresses nor their counts. -/
theorem Good.each (h : Good p s) {interface : NetInterface A} (more : A → List Speaker)
    (hquiet : Speaker.host ∉ more p.allNodesAddr)
    (heach : List.Forall₂ (fun e e' => e'.toRefEntry = e.toRefEntry ∧
      (0 < e.refCount → (e.addr = p.allNodesAddr → e'.flag = false ∧ e'.state = .idleMember) ∧
        (interface.linkState = true → e.addr ≠ p.allNodesAddr →
          (e'.flag = true ↔ (s.reports e.addr ++ more e.addr).getLast? = some .host))))
      s.interface.multicastFilter interface.multicastFilter) :
    Good p { interface := interface
             reports := fun a =>
              if InUse a interface.multicastFilter then s.reports a ++ more a else [] } := by
  have hkeys : interface.multicastFilter.map FilterEntry.toRefEntry =
      s.interface.multicastFilter.map FilterEntry.toRefEntry := by
    rw [← List.forall₂_eq_eq_eq, List.forall₂_map_left_iff, List.forall₂_map_right_iff]
    exact List.Forall₂.flip (heach.imp fun _ _ hkey => hkey.1)
  have hback : ∀ e' ∈ interface.multicastFilter, ∃ e ∈ s.interface.multicastFilter,
      e'.toRefEntry = e.toRefEntry ∧
      (0 < e.refCount → (e.addr = p.allNodesAddr → e'.flag = false ∧ e'.state = .idleMember) ∧
        (interface.linkState = true → e.addr ≠ p.allNodesAddr →
          (e'.flag = true ↔ (s.reports e.addr ++ more e.addr).getLast? = some .host))) := by
    intro e' he'
    obtain ⟨i, hi, rfl⟩ := List.getElem_of_mem he'
    have hi' : i < s.interface.multicastFilter.length := by rwa [heach.length_eq]
    exact ⟨_, List.getElem_mem hi', heach.get hi' hi⟩
  refine ⟨?_, ?_, ?_, ?_, ?_⟩
  · show RefTable.Distinct _
    rw [hkeys]
    exact h.distinct
  · intro e' he' hpos
    obtain ⟨e, he, hkey, -⟩ := hback e' he'
    rw [hkey] at hpos ⊢
    exact h.multicast e he hpos
  · intro e' he' hpos haddr
    obtain ⟨e, he, hkey, hspec⟩ := hback e' he'
    rw [hkey] at hpos haddr
    exact (hspec hpos).1 haddr
  · show Speaker.host ∉ ite _ _ _
    split
    · exact fun hmem => (List.mem_append.1 hmem).elim h.quiet hquiet
    · exact List.not_mem_nil
  · intro hlink e' he' hpos haddr
    obtain ⟨e, he, hkey, hspec⟩ := hback e' he'
    show _ ↔ (ite _ _ _ : List Speaker).getLast? = _
    rw [if_pos ⟨e', he', hpos, rfl⟩, hkey]
    rw [hkey] at hpos haddr
    exact (hspec hpos).2 hlink haddr

/-- A new entry for a group without one. -/
theorem Good.insert (h : Good p s) {i : ℕ} {e e' : FilterEntry A}
    (he : s.interface.multicastFilter[i]? = some e) {interface : NetInterface A}
    (hset : interface.multicastFilter = s.interface.multicastFilter.set i e')
    (hlink : interface.linkState = s.interface.linkState)
    (hfree : ∀ d ∈ s.interface.multicastFilter, 0 < d.refCount → d.addr ≠ e'.addr)
    (hmulticast : p.isMulticastAddr e'.addr = true) (more : A → List Speaker)
    (hquiet : Speaker.host ∉ more p.allNodesAddr) (hmore : ∀ a ≠ e'.addr, more a = [])
    (hspecial : e'.addr = p.allNodesAddr → e'.flag = false ∧ e'.state = .idleMember)
    (hlast : interface.linkState = true → e'.addr ≠ p.allNodesAddr →
      (e'.flag = true ↔ (s.reports e'.addr ++ more e'.addr).getLast? = some .host)) :
    Good p { interface := interface
             reports := fun a =>
              if InUse a interface.multicastFilter then s.reports a ++ more a else [] } := by
  obtain ⟨pre, post, hsplit, hreplace, -⟩ := RefTable.split_at he
  rw [hreplace] at hset
  have hcases : ∀ d ∈ interface.multicastFilter, d = e' ∨ d ∈ s.interface.multicastFilter := by
    intro d hd
    rw [hset] at hd
    rw [hsplit]
    rcases List.mem_append.1 hd with hd | hd
    · exact Or.inr (List.mem_append_left _ hd)
    · rcases List.mem_cons.1 hd with rfl | hd
      · exact Or.inl rfl
      · exact Or.inr (List.mem_append_right _ (List.mem_cons_of_mem _ hd))
  have hdistinct := h.distinct
  refine ⟨?_, ?_, ?_, ?_, ?_⟩
  · rw [hsplit, List.map_append, List.map_cons] at hdistinct
    show RefTable.Distinct _
    rw [hset, List.map_append, List.map_cons]
    refine hdistinct.replace fun _ d hd hdpos => ?_
    rw [← List.map_append] at hd
    obtain ⟨c, hc, rfl⟩ := List.mem_map.1 hd
    refine hfree c ?_ hdpos
    rw [hsplit]
    rcases List.mem_append.1 hc with hc | hc
    · exact List.mem_append_left _ hc
    · exact List.mem_append_right _ (List.mem_cons_of_mem _ hc)
  · intro d hd hpos
    rcases hcases d hd with rfl | hd
    · exact hmulticast
    · exact h.multicast d hd hpos
  · intro d hd hpos haddr
    rcases hcases d hd with rfl | hd
    · exact hspecial haddr
    · exact h.special d hd hpos haddr
  · show Speaker.host ∉ ite _ _ _
    split
    · exact fun hmem => (List.mem_append.1 hmem).elim h.quiet hquiet
    · exact List.not_mem_nil
  · intro hup d hd hpos haddr
    show _ ↔ (ite _ _ _ : List Speaker).getLast? = _
    rw [if_pos ⟨d, hd, hpos, rfl⟩]
    rcases hcases d hd with rfl | hd
    · exact hlast hup haddr
    · rw [hmore d.addr (hfree d hd hpos), List.append_nil]
      exact h.last (hlink ▸ hup) d hd hpos haddr

/-- The count of an entry changes, or the entry gets free. -/
theorem Good.recount (h : Good p s) {i : ℕ} {e e' : FilterEntry A}
    (he : s.interface.multicastFilter[i]? = some e) (hpos : 0 < e.refCount)
    {interface : NetInterface A}
    (hset : interface.multicastFilter = s.interface.multicastFilter.set i e')
    (hlink : interface.linkState = s.interface.linkState)
    (hsame : 0 < e'.refCount → e'.addr = e.addr ∧ e'.flag = e.flag ∧ e'.state = e.state)
    {more : A → List Speaker} (hmore : ∀ a, more a = []) :
    Good p { interface := interface
             reports := fun a =>
              if InUse a interface.multicastFilter then s.reports a ++ more a else [] } := by
  obtain rfl : more = fun _ => [] := funext hmore
  obtain ⟨pre, post, hsplit, hreplace, -⟩ := RefTable.split_at he
  have hmem : e ∈ s.interface.multicastFilter := List.mem_of_getElem? he
  rw [hreplace] at hset
  -- an entry in use has the address, the flag and the state of an entry that was
  have hback : ∀ d ∈ interface.multicastFilter, 0 < d.refCount →
      ∃ c ∈ s.interface.multicastFilter, 0 < c.refCount ∧ d.addr = c.addr ∧ d.flag = c.flag ∧
        d.state = c.state := by
    intro d hd hdpos
    rw [hset] at hd
    have hkept : d ∈ pre ++ post → ∃ c ∈ s.interface.multicastFilter, 0 < c.refCount ∧
        d.addr = c.addr ∧ d.flag = c.flag ∧ d.state = c.state := by
      intro hd
      refine ⟨d, ?_, hdpos, rfl, rfl, rfl⟩
      rw [hsplit]
      rcases List.mem_append.1 hd with hd | hd
      · exact List.mem_append_left _ hd
      · exact List.mem_append_right _ (List.mem_cons_of_mem _ hd)
    rcases List.mem_append.1 hd with hd | hd
    · exact hkept (List.mem_append_left _ hd)
    · rcases List.mem_cons.1 hd with rfl | hd
      · exact ⟨e, hmem, hpos, hsame hdpos⟩
      · exact hkept (List.mem_append_right _ hd)
  have hdistinct := h.distinct
  refine ⟨?_, ?_, ?_, ?_, ?_⟩
  · rw [hsplit, List.map_append, List.map_cons] at hdistinct
    show RefTable.Distinct _
    rw [hset, List.map_append, List.map_cons]
    refine hdistinct.replace fun hpos' d hd hdpos => ?_
    rw [show e'.toRefEntry.addr = e.toRefEntry.addr from (hsame hpos').1]
    exact hdistinct.others hpos d hd hdpos
  · intro d hd hdpos
    obtain ⟨c, hc, hcpos, haddr, -, -⟩ := hback d hd hdpos
    rw [haddr]
    exact h.multicast c hc hcpos
  · intro d hd hdpos hall
    obtain ⟨c, hc, hcpos, haddr, hflag, hstate⟩ := hback d hd hdpos
    rw [hflag, hstate]
    exact h.special c hc hcpos (haddr ▸ hall)
  · show Speaker.host ∉ ite _ _ _
    split
    · rw [List.append_nil]
      exact h.quiet
    · exact List.not_mem_nil
  · intro hup d hd hdpos hall
    obtain ⟨c, hc, hcpos, haddr, hflag, -⟩ := hback d hd hdpos
    show _ ↔ (ite _ _ _ : List Speaker).getLast? = _
    rw [if_pos ⟨d, hd, hdpos, rfl⟩, List.append_nil, hflag, haddr]
    exact h.last (hlink ▸ hup) c hc hcpos (haddr ▸ hall)

end Invariant

/-! ## Events -/

section Events

variable {A M G : Type*} [DecidableEq A] {p : Protocol A M} {s : History A}

theorem sendReport_eq {v : Bool} {a : A} (hmulticast : p.isMulticastAddr a = true)
    (hall : a ≠ p.allNodesAddr) : sendReport p v a = [.report (p.compatibility && v) a] := by
  rw [sendReport, hmulticast, if_neg hall]
  rfl

theorem mem_sendReport {v : Bool} {a : A} {m : Sent A} (h : m ∈ sendReport p v a) :
    a ≠ p.allNodesAddr ∧ ∃ w, m = .report w a := by
  rw [sendReport] at h
  split_ifs at h with hmulticast hall
  · cases h
  · cases h
  · exact ⟨hall, _, List.mem_singleton.1 h⟩

omit [DecidableEq A] in
theorem reports_iff {a : A} {sent : List (Sent A)} :
    Reports a sent ↔ ∃ v, .report v a ∈ sent :=
  ⟨fun h => h.elim (⟨true, ·⟩) (⟨false, ·⟩), fun ⟨v, hv⟩ => by
    cases v with
    | true => exact Or.inl hv
    | false => exact Or.inr hv⟩

theorem reports_sendReport {v : Bool} {a : A} (hmulticast : p.isMulticastAddr a = true)
    (hall : a ≠ p.allNodesAddr) : Reports a (sendReport p v a) := by
  rw [reports_iff, sendReport_eq hmulticast hall]
  exact ⟨_, List.mem_singleton.2 rfl⟩

omit [DecidableEq A] in
theorem not_reports_nil (a : A) : ¬ Reports a [] := by
  rw [reports_iff]
  exact fun ⟨_, hv⟩ => List.not_mem_nil hv

/-- What is done to one entry in place: it sends reports only for its own group, if it is in use. -/
def Local (p : Protocol A M) (f : FilterEntry A → FilterEntry A × List (Sent A)) : Prop :=
  ∀ e, (f e).1.toRefEntry = e.toRefEntry ∧
    ((f e).2 = [] ∨ (0 < e.refCount ∧ ∃ v, (f e).2 = sendReport p v e.addr))

theorem tickEntry_local (p : Protocol A M) (v : Bool) (time : UInt32) :
    Local p (tickEntry p v time) := by
  intro e
  rw [tickEntry]
  split_ifs with hpos
  · exact ⟨rfl, Or.inr ⟨hpos, _, rfl⟩⟩
  all_goals exact ⟨rfl, Or.inl rfl⟩

theorem linkUpEntry_local (p : Protocol A M) (v : Bool) (time : UInt32) :
    Local p (linkUpEntry p v time) := by
  intro e
  rw [linkUpEntry]
  split_ifs with hpos
  · exact ⟨rfl, Or.inr ⟨hpos, _, rfl⟩⟩
  all_goals exact ⟨rfl, Or.inl rfl⟩

theorem linkDownEntry_local (p : Protocol A M) : Local p linkDownEntry := by
  intro e
  rw [linkDownEntry]
  split_ifs
  all_goals exact ⟨rfl, Or.inl rfl⟩

theorem reportEntry_local (p : Protocol A M) (groupAddr : A) : Local p (reportEntry groupAddr) := by
  intro e
  rw [reportEntry]
  split_ifs
  all_goals exact ⟨rfl, Or.inl rfl⟩

/-- A message of the loop over the entries is a report. -/
theorem Local.report {f : FilterEntry A → FilterEntry A × List (Sent A)} (hf : Local p f)
    {interface : NetInterface A} {m : Sent A} (hm : m ∈ (forEach f interface).2) :
    ∃ v, ∃ e ∈ interface.multicastFilter, m = .report v e.addr ∧ 0 < e.refCount ∧
      e.addr ≠ p.allNodesAddr ∧ m ∈ (f e).2 := by
  obtain ⟨e, he, hme⟩ := List.mem_flatMap.1 hm
  rcases (hf e).2 with hnil | ⟨hpos, v, hsend⟩
  · rw [hnil] at hme
    cases hme
  · obtain ⟨hall, w, hw⟩ := mem_sendReport (hsend ▸ hme)
    exact ⟨w, e, he, hw, hpos, hall, hme⟩

/-- The group of an entry in use is reported if and only if the entry does it. -/
theorem Good.reports_forEach (h : Good p s) {f : FilterEntry A → FilterEntry A × List (Sent A)}
    (hf : Local p f) {interface : NetInterface A}
    (hfilter : interface.multicastFilter = s.interface.multicastFilter) {e : FilterEntry A}
    (he : e ∈ s.interface.multicastFilter) (hpos : 0 < e.refCount) :
    Reports e.addr (forEach f interface).2 ↔ Reports e.addr (f e).2 := by
  rw [reports_iff, reports_iff]
  constructor
  · rintro ⟨v, hv⟩
    obtain ⟨w, d, hd, hm, hdpos, -, hmd⟩ := hf.report hv
    rw [hfilter] at hd
    obtain rfl := h.unique hd he hdpos hpos (Sent.report.inj hm).2.symm
    exact ⟨v, hmd⟩
  · rintro ⟨v, hv⟩
    exact ⟨v, List.mem_flatMap.2 ⟨e, hfilter ▸ he, hv⟩⟩

/-- The reports that an event adds when every entry is changed in place. -/
theorem Good.pointwise (h : Good p s) {f : FilterEntry A → FilterEntry A × List (Sent A)}
    (hf : Local p f) {interface : NetInterface A}
    (hfilter : interface.multicastFilter = s.interface.multicastFilter) (others : A → List Speaker)
    (hquiet : Speaker.host ∉ others p.allNodesAddr)
    (hentry : ∀ e ∈ s.interface.multicastFilter, 0 < e.refCount →
      (e.addr = p.allNodesAddr → (f e).1.flag = false ∧ (f e).1.state = .idleMember) ∧
      (interface.linkState = true → e.addr ≠ p.allNodesAddr →
        ((f e).1.flag = true ↔ (s.reports e.addr ++ (others e.addr ++
          if Reports e.addr (f e).2 then [Speaker.host] else [])).getLast? = some .host)))
    {more : A → List Speaker}
    (hmore : ∀ a, more a =
      others a ++ if Reports a (forEach f interface).2 then [Speaker.host] else []) :
    Good p { interface := (forEach f interface).1
             reports := fun a =>
              if InUse a (forEach f interface).1.multicastFilter then s.reports a ++ more a
              else [] } := by
  obtain rfl := funext hmore
  refine h.each (fun a => others a ++ if Reports a (forEach f interface).2 then [Speaker.host] else [])
    ?_ ?_
  · intro hmem
    rcases List.mem_append.1 hmem with hmem | hmem
    · exact hquiet hmem
    · split_ifs at hmem with hreports
      · obtain ⟨v, hv⟩ := reports_iff.1 hreports
        obtain ⟨w, e, -, hm, -, hall, -⟩ := hf.report hv
        exact hall (Sent.report.inj hm).2.symm
      · cases hmem
  · show List.Forall₂ _ _ (List.map _ _)
    rw [hfilter, List.forall₂_map_right_iff, List.forall₂_same]
    intro e he
    refine ⟨(hf e).1, fun hpos => ?_⟩
    simp only [h.reports_forEach hf hfilter he hpos]
    exact hentry e he hpos

theorem getLast_host (l : List Speaker) : (l ++ [Speaker.host]).getLast? = some .host := by
  rw [List.getLast?_append, List.getLast?_singleton, Option.some_or]

theorem getLast_other (l : List Speaker) : (l ++ [Speaker.other]).getLast? ≠ some .host := by
  rw [List.getLast?_append, List.getLast?_singleton, Option.some_or]
  nofun

/-- Nothing happens. -/
theorem Good.same (h : Good p s) {interface : NetInterface A}
    (hfilter : interface.multicastFilter = s.interface.multicastFilter)
    (hlink : interface.linkState = s.interface.linkState)
    {more : A → List Speaker} (hmore : ∀ a, more a = []) :
    Good p { interface := interface
             reports := fun a =>
              if InUse a interface.multicastFilter then s.reports a ++ more a else [] } := by
  refine h.each more (by rw [hmore]; exact List.not_mem_nil) ?_
  rw [hfilter, List.forall₂_same]
  intro e he
  refine ⟨rfl, fun hpos => ⟨h.special e he hpos, fun hup hall => ?_⟩⟩
  rw [hmore, List.append_nil]
  exact h.last (hlink ▸ hup) e he hpos hall

theorem find_some {a : A} {filter : List (FilterEntry A)} {i : ℕ}
    (h : find a filter = some i) :
    ∃ e, filter[i]? = some e ∧ 0 < e.refCount ∧ e.addr = a := by
  obtain ⟨hi, hfound, -⟩ := List.findIdx?_eq_some_iff_getElem.1 h
  exact ⟨_, List.getElem?_eq_getElem hi, of_decide_eq_true hfound⟩

theorem find_none {a : A} {filter : List (FilterEntry A)} (h : find a filter = none) :
    ¬ InUse a filter := by
  rintro ⟨e, he, hpos, haddr⟩
  exact absurd (List.findIdx?_eq_none_iff.1 h e he) (by simp [hpos, haddr])

omit [DecidableEq A] in
theorem recount_same {e : FilterEntry A} (n : ℕ) :
    (e.recount n).addr = e.addr ∧ (e.recount n).flag = e.flag ∧ (e.recount n).state = e.state := by
  rw [FilterEntry.recount]
  split <;> exact ⟨rfl, rfl, rfl⟩

/-- The reports that an event other than a report adds. -/
theorem heard_eq {counts : A → List (FilterEntry A) → Bool} {filter : List (FilterEntry A)}
    {event : Event A M G} {a : A} (hevent : ¬ event.Reported p a) (sent : List (Sent A)) :
    heard p counts filter event sent a = if Reports a sent then [.host] else [] := by
  rw [heard, if_neg fun h => hevent h.1, List.nil_append]

theorem heard_nil {counts : A → List (FilterEntry A) → Bool} {filter : List (FilterEntry A)}
    {event : Event A M G} {a : A} (hevent : ¬ event.Reported p a) :
    heard p counts filter event [] a = [] := by
  rw [heard_eq hevent, if_neg (not_reports_nil a)]

/-- A step, with what it returns. -/
theorem historyStep_eq {netGetRand : G → UInt32 × G} {counts : A → List (FilterEntry A) → Bool}
    {event : Event A M G} {interface : NetInterface A} {sent : List (Sent A)}
    (hstep : step p netGetRand s.interface event = (interface, sent)) :
    historyStep p netGetRand counts s event =
      { interface := interface
        reports := fun a =>
          if InUse a interface.multicastFilter then
            s.reports a ++ heard p counts s.interface.multicastFilter event sent a
          else [] } := by
  rw [historyStep, hstep]

theorem mem_joinGroup {interface : NetInterface A} {time : UInt32} {groupAddr : A}
    {e : FilterEntry A} {m : Sent A} (hm : m ∈ (joinGroup p interface time groupAddr e).2) :
    groupAddr ≠ p.allNodesAddr ∧ ∃ v, m = .report v groupAddr := by
  rw [joinGroup] at hm
  split_ifs at hm
  · cases hm
  · exact mem_sendReport hm
  · cases hm

theorem Good.join (h : Good p s) (netGetRand : G → UInt32 × G)
    (counts : A → List (FilterEntry A) → Bool) (groupAddr : A) (accepted : Bool) (time : UInt32) :
    Good p (historyStep p netGetRand counts s (.join groupAddr accepted time)) := by
  have hsame : ∀ interface : NetInterface A,
      step p netGetRand s.interface (.join groupAddr accepted time) = (interface, []) →
      interface.multicastFilter = s.interface.multicastFilter →
      interface.linkState = s.interface.linkState →
      Good p (historyStep p netGetRand counts s (.join groupAddr accepted time)) := by
    intro interface hstep hfilter hlink
    rw [historyStep_eq hstep]
    exact h.same hfilter hlink fun a => heard_nil id
  by_cases hmulticast : p.isMulticastAddr groupAddr = true
  swap
  · refine hsame s.interface ?_ rfl rfl
    rw [step, joinMulticastGroup, if_pos (by simpa using hmulticast)]
  cases hfind : find groupAddr s.interface.multicastFilter with
  | some i =>
      obtain ⟨e, he, hpos, -⟩ := find_some hfind
      obtain ⟨interface, hset, hlink, hstep⟩ : ∃ interface : NetInterface A,
          interface.multicastFilter =
            s.interface.multicastFilter.set i (e.recount ((e.refCount + 1) % 2 ^ 32)) ∧
          interface.linkState = s.interface.linkState ∧
          step p netGetRand s.interface (.join groupAddr accepted time) = (interface, []) := by
        refine ⟨{ s.interface with
          multicastFilter :=
            s.interface.multicastFilter.set i (e.recount ((e.refCount + 1) % 2 ^ 32)) },
          rfl, rfl, ?_⟩
        rw [step, joinMulticastGroup, hmulticast]
        simp only [Bool.not_true, Bool.false_eq_true, if_false, hfind, he]
      rw [historyStep_eq hstep]
      exact h.recount he hpos hset hlink (fun _ => recount_same _) fun a => heard_nil id
  | none =>
      have hnone := find_none hfind
      cases hfree : s.interface.multicastFilter.findIdx? fun e => e.refCount = 0 with
      | none =>
          refine hsame s.interface ?_ rfl rfl
          rw [step, joinMulticastGroup, hmulticast]
          simp only [Bool.not_true, Bool.false_eq_true, if_false, hfind, hfree]
      | some i =>
          obtain ⟨hi, -, -⟩ := List.findIdx?_eq_some_iff_getElem.1 hfree
          have he := List.getElem?_eq_getElem hi
          set e := s.interface.multicastFilter[i] with hdef
          cases accepted with
          | false =>
              refine hsame s.interface ?_ rfl rfl
              rw [step, joinMulticastGroup, hmulticast]
              simp only [Bool.not_true, Bool.false_eq_true, if_false, hfind, hfree, he]
          | true =>
              obtain ⟨interface, hset, hlink, hstep⟩ : ∃ interface : NetInterface A,
                  interface.multicastFilter = s.interface.multicastFilter.set i
                    (joinGroup p s.interface time groupAddr e).1 ∧
                  interface.linkState = s.interface.linkState ∧
                  step p netGetRand s.interface (.join groupAddr true time) =
                    (interface, (joinGroup p s.interface time groupAddr e).2) := by
                refine ⟨{ s.interface with
                  multicastFilter := s.interface.multicastFilter.set i
                    (joinGroup p s.interface time groupAddr e).1 }, rfl, rfl, ?_⟩
                rw [step, joinMulticastGroup, hmulticast]
                simp only [Bool.not_true, Bool.false_eq_true, if_false, if_true, hfind, hfree, he]
              rw [historyStep_eq hstep]
              have haddr : (joinGroup p s.interface time groupAddr e).1.addr = groupAddr := by
                rw [joinGroup]
                split_ifs <;> rfl
              have hreports : ∀ a, Reports a (joinGroup p s.interface time groupAddr e).2 →
                  groupAddr ≠ p.allNodesAddr ∧ a = groupAddr := by
                intro a ha
                obtain ⟨v, hv⟩ := reports_iff.1 ha
                obtain ⟨hall, w, hw⟩ := mem_joinGroup hv
                exact ⟨hall, (Sent.report.inj hw).2⟩
              refine h.insert he hset hlink (fun d hd hdpos hname => hnone ⟨d, hd, hdpos, ?_⟩) ?_
                (heard p counts s.interface.multicastFilter (.join groupAddr true time) _) ?_ ?_
                ?_ ?_
              · exact hname.trans haddr
              · rw [haddr]
                exact hmulticast
              · rw [heard_eq id]
                split_ifs with hr
                · exact absurd (hreports _ hr).2 (hreports _ hr).1.symm
                · exact List.not_mem_nil
              · intro a ha
                rw [haddr] at ha
                rw [heard_eq id, if_neg fun hr => ha (hreports a hr).2]
              · intro hall
                rw [haddr] at hall
                rw [joinGroup, if_pos hall]
                exact ⟨rfl, rfl⟩
              · intro hup hall
                rw [hlink] at hup
                rw [haddr] at hall ⊢
                have hjoin : joinGroup p s.interface time groupAddr e = ({ e with
                    addr := groupAddr, refCount := 1, flag := true
                    timer := time + p.unsolicitedReportInterval, state := .delayingMember
                    member := fun _ => by decide },
                    sendReport p s.interface.igmpv1RouterPresent groupAddr) := by
                  rw [joinGroup, if_neg hall, if_pos hup]
                rw [heard_eq id, hjoin, if_pos (reports_sendReport hmulticast hall)]
                exact iff_of_true rfl (getLast_host _)

/-- Leaving: the group is not joined, or its count goes down, or it is the last reference. -/
theorem leave_cases (h : Good p s) (groupAddr : A) :
    (¬ InUse groupAddr s.interface.multicastFilter ∧
      leaveMulticastGroup p s.interface groupAddr = (s.interface, [])) ∨
    ∃ i e interface, s.interface.multicastFilter[i]? = some e ∧ 0 < e.refCount ∧
      e.addr = groupAddr ∧ interface.linkState = s.interface.linkState ∧
      ((e.refCount - 1 ≠ 0 ∧ leaveMulticastGroup p s.interface groupAddr = (interface, []) ∧
          interface.multicastFilter =
            s.interface.multicastFilter.set i (e.recount (e.refCount - 1))) ∨
        (e.refCount - 1 = 0 ∧
          leaveMulticastGroup p s.interface groupAddr =
            (interface, (leaveGroup p s.interface e).2) ∧
          interface.multicastFilter =
            s.interface.multicastFilter.set i (leaveGroup p s.interface e).1)) := by
  by_cases hmulticast : p.isMulticastAddr groupAddr = true
  swap
  · refine Or.inl ⟨?_, by rw [leaveMulticastGroup, if_pos (by simpa using hmulticast)]⟩
    rintro ⟨e, he, hpos, rfl⟩
    exact hmulticast (h.multicast e he hpos)
  cases hfind : find groupAddr s.interface.multicastFilter with
  | none =>
      refine Or.inl ⟨find_none hfind, ?_⟩
      rw [leaveMulticastGroup, hmulticast]
      simp only [Bool.not_true, Bool.false_eq_true, if_false, hfind]
  | some i =>
      obtain ⟨e, he, hpos, haddr⟩ := find_some hfind
      rw [leaveMulticastGroup, hmulticast]
      simp only [Bool.not_true, Bool.false_eq_true, if_false, hfind, he]
      by_cases hlast : e.refCount - 1 = 0
      · rw [if_pos hlast]
        exact Or.inr ⟨i, e, { s.interface with
          multicastFilter := s.interface.multicastFilter.set i (leaveGroup p s.interface e).1 },
          he, hpos, haddr, rfl, Or.inr ⟨hlast, rfl, rfl⟩⟩
      · rw [if_neg hlast]
        exact Or.inr ⟨i, e, { s.interface with
          multicastFilter := s.interface.multicastFilter.set i (e.recount (e.refCount - 1)) },
          he, hpos, haddr, rfl, Or.inl ⟨hlast, rfl, rfl⟩⟩

theorem not_reports_leaveGroup (p : Protocol A M) (interface : NetInterface A)
    (e : FilterEntry A) (a : A) : ¬ Reports a (leaveGroup p interface e).2 := by
  rw [reports_iff]
  rintro ⟨v, hv⟩
  simp only [leaveGroup, sendLeave] at hv
  split_ifs at hv <;> simp at hv

theorem Good.leave (h : Good p s) (netGetRand : G → UInt32 × G)
    (counts : A → List (FilterEntry A) → Bool) (groupAddr : A) :
    Good p (historyStep p netGetRand counts s (.leave groupAddr)) := by
  have hstep : step p netGetRand s.interface (.leave groupAddr) =
      leaveMulticastGroup p s.interface groupAddr := rfl
  rcases leave_cases h groupAddr with ⟨-, hleave⟩ |
    ⟨i, e, interface, he, hpos, -, hlink, ⟨-, hleave, hset⟩ | ⟨-, hleave, hset⟩⟩
  · rw [historyStep_eq (hstep.trans hleave)]
    exact h.same rfl rfl fun a => heard_nil id
  · rw [historyStep_eq (hstep.trans hleave)]
    exact h.recount he hpos hset hlink (fun _ => recount_same _) fun a => heard_nil id
  · rw [historyStep_eq (hstep.trans hleave)]
    refine h.recount he hpos hset hlink (fun hpos' => absurd hpos' (lt_irrefl 0)) fun a => ?_
    rw [heard_eq id, if_neg (not_reports_leaveGroup p _ e a)]

theorem Good.tick (h : Good p s) (netGetRand : G → UInt32 × G)
    (counts : A → List (FilterEntry A) → Bool) (time : UInt32) :
    Good p (historyStep p netGetRand counts s (.tick time)) := by
  refine h.pointwise (tickEntry_local p _ time) (by split_ifs <;> rfl) (fun _ => [])
    List.not_mem_nil (fun e he hpos => ?_) fun a => ?_
  swap
  · exact heard_eq id _
  have hsame : ∀ {b : Bool}, (if p.compatibility ∧
      timeCompare time s.interface.igmpv1RouterPresentTimer ≥ 0 then
        { s.interface with igmpv1RouterPresent := b } else s.interface).linkState =
      s.interface.linkState := by
    intro b
    split_ifs <;> rfl
  rw [List.nil_append, hsame, tickEntry, if_pos hpos]
  have hidle : (e.addr = p.allNodesAddr → e.flag = false ∧ e.state = .idleMember) ∧
      (s.interface.linkState = true → e.addr ≠ p.allNodesAddr →
        (e.flag = true ↔ (s.reports e.addr ++
          if Reports e.addr [] then [Speaker.host] else []).getLast? = some .host)) := by
    rw [if_neg (not_reports_nil _), List.append_nil]
    exact ⟨h.special e he hpos, fun hlink hall => h.last hlink e he hpos hall⟩
  by_cases hdelaying : e.state = .delayingMember
  · rw [if_pos hdelaying]
    by_cases hexpired : timeCompare time e.timer ≥ 0
    · rw [if_pos hexpired]
      refine ⟨fun hall => ?_, fun _ hall => ?_⟩
      · rw [(h.special e he hpos hall).2] at hdelaying
        cases hdelaying
      · rw [if_pos (reports_sendReport (h.multicast e he hpos) hall)]
        exact iff_of_true rfl (getLast_host _)
    · rw [if_neg hexpired]
      exact hidle
  · rw [if_neg hdelaying]
    exact hidle

theorem Good.linkChange (h : Good p s) (netGetRand : G → UInt32 × G)
    (counts : A → List (FilterEntry A) → Bool) (up : Bool) (time : UInt32) :
    Good p (historyStep p netGetRand counts s (.linkChange up time)) := by
  cases up with
  | true =>
      refine h.pointwise (linkUpEntry_local p _ time) (by split_ifs <;> rfl) (fun _ => [])
        List.not_mem_nil (fun e he hpos => ?_) fun a => ?_
      swap
      · exact heard_eq id _
      rw [List.nil_append, linkUpEntry, if_pos hpos]
      by_cases hall : e.addr = p.allNodesAddr
      · rw [if_neg (not_not.2 hall)]
        exact ⟨fun _ => h.special e he hpos hall, fun _ hne => absurd hall hne⟩
      · rw [if_pos hall, if_pos (reports_sendReport (h.multicast e he hpos) hall)]
        exact ⟨fun heq => absurd heq hall, fun _ _ => iff_of_true rfl (getLast_host _)⟩
  | false =>
      refine h.pointwise (linkDownEntry_local p) (by rfl) (fun _ => []) List.not_mem_nil
        (fun e he hpos => ?_) fun a => ?_
      swap
      · exact heard_eq id _
      rw [linkDownEntry, if_pos hpos]
      exact ⟨fun _ => ⟨rfl, rfl⟩, fun hdown => absurd hdown Bool.false_ne_true⟩

theorem Good.query (h : Good p s) (netGetRand : G → UInt32 × G)
    (counts : A → List (FilterEntry A) → Bool) (message : M) (time : UInt32) (g : G) :
    Good p (historyStep p netGetRand counts s (.query message time g)) := by
  have hstep : step p netGetRand s.interface (.query message time g) =
      ((processQuery p netGetRand s.interface message time g).1, []) := rfl
  rw [historyStep_eq hstep]
  cases hq : p.queried message with
  | none =>
      rw [processQuery, hq]
      exact h.same rfl rfl fun a => heard_nil id
  | some q =>
      have hlink : (processQuery p netGetRand s.interface message time g).1.linkState =
          s.interface.linkState := by
        rw [processQuery, hq]
        by_cases hversion : q.version1 = true
        · simp only [hversion, if_true]
        · simp only [hversion, if_false, Bool.false_eq_true]
      refine h.each _ (by rw [heard_nil id]; exact List.not_mem_nil) ?_
      rw [processQuery_filter hq, hlink]
      refine ((List.forall₂_and_left _ _).2
        ⟨fun e he => he, queryLoop_answered p netGetRand q time _ g⟩).imp ?_
      rintro e e' ⟨he, ⟨⟨haddr, hcount, hflag⟩, -, -, hothers⟩, -⟩
      have hkey : e'.toRefEntry = e.toRefEntry := by
        rw [RefEntry.mk.injEq]
        exact ⟨haddr, hcount⟩
      refine ⟨hkey, fun hpos => ⟨fun hall => ?_, fun hup hall => ?_⟩⟩
      · rw [hothers fun h => h.2.1 hall]
        exact h.special e he hpos hall
      · rw [hflag, heard_nil id, List.append_nil]
        exact h.last hup e he hpos hall

theorem Good.report (h : Good p s) (netGetRand : G → UInt32 × G) (message : M) :
    Good p (historyStep p netGetRand (fun a filter => decide (Pending a filter)) s
      (.report message)) := by
  cases hreported : p.reported message with
  | none =>
      have hstep : step p netGetRand s.interface (.report message) = (s.interface, []) := by
        rw [step, processReport, hreported]
      rw [historyStep_eq hstep]
      refine h.same rfl rfl fun a => heard_nil ?_
      rw [Event.Reported, hreported]
      nofun
  | some groupAddr =>
      have hstep : step p netGetRand s.interface (.report message) =
          ((forEach (reportEntry groupAddr) s.interface).1,
            (forEach (reportEntry groupAddr) s.interface).2) := by
        have hnil : (forEach (reportEntry groupAddr) s.interface).2 = [] := by
          refine List.flatMap_eq_nil_iff.2 fun e _ => ?_
          rw [reportEntry]
          split_ifs <;> rfl
        rw [hnil, step, processReport, hreported]
      rw [historyStep_eq hstep]
      refine h.pointwise (reportEntry_local p groupAddr) rfl
        (fun a => if a = groupAddr ∧ Pending a s.interface.multicastFilter then [.other] else [])
        ?_ (fun e he hpos => ?_) fun a => ?_
      · split_ifs
        · nofun
        · exact List.not_mem_nil
      · -- the report is counted if and only if the entry's own report is pending
        have hpending : Pending e.addr s.interface.multicastFilter ↔ e.state = .delayingMember := by
          constructor
          · rintro ⟨d, hd, hdpos, haddr, hstate⟩
            rwa [← h.unique hd he hdpos hpos haddr]
          · exact fun hstate => ⟨e, he, hpos, rfl, hstate⟩
        simp only [hpending]
        rw [reportEntry, if_pos hpos]
        by_cases hdelaying : e.state = .delayingMember
        · rw [if_pos hdelaying]
          by_cases hgroup : groupAddr = e.addr
          · rw [if_pos hgroup, if_pos ⟨hgroup.symm, hdelaying⟩, if_neg (not_reports_nil _),
              List.append_nil]
            exact ⟨fun _ => ⟨rfl, rfl⟩,
              fun _ _ => iff_of_false Bool.false_ne_true (getLast_other _)⟩
          · rw [if_neg hgroup, if_neg fun hboth => hgroup hboth.1.symm, if_neg (not_reports_nil _),
              List.append_nil, List.append_nil]
            exact ⟨h.special e he hpos, fun hup hall => h.last hup e he hpos hall⟩
        · rw [if_neg hdelaying, if_neg fun hboth => hdelaying hboth.2, if_neg (not_reports_nil _),
            List.append_nil, List.append_nil]
          exact ⟨h.special e he hpos, fun hup hall => h.last hup e he hpos hall⟩
      · rw [heard]
        congr 1
        refine if_congr ?_ rfl rfl
        rw [decide_eq_true_eq, Event.Reported, hreported, Option.some_inj, eq_comm]

/-- Every event keeps the invariant. -/
theorem Good.historyStep (h : Good p s) (netGetRand : G → UInt32 × G) (event : Event A M G) :
    Good p (historyStep p netGetRand (fun a filter => decide (Pending a filter)) s event) := by
  cases event with
  | join groupAddr accepted time => exact h.join netGetRand _ groupAddr accepted time
  | leave groupAddr => exact h.leave netGetRand _ groupAddr
  | tick time => exact h.tick netGetRand _ time
  | linkChange up time => exact h.linkChange netGetRand _ up time
  | query message time g => exact h.query netGetRand _ message time g
  | report message => exact h.report netGetRand message

omit [DecidableEq A] in
theorem good_start (p : Protocol A M) (size : ℕ) (timer : UInt32) : Good p (start p size timer) := by
  have hfree : ∀ e ∈ (start p size timer).interface.multicastFilter, ¬ 0 < e.refCount := by
    intro e he
    rw [List.eq_of_mem_replicate he]
    exact lt_irrefl 0
  refine ⟨?_, fun e he hpos => absurd hpos (hfree e he), fun e he hpos => absurd hpos (hfree e he),
    List.not_mem_nil, fun _ e he hpos => absurd hpos (hfree e he)⟩
  refine RefTable.distinct_of_free fun d hd => ?_
  obtain ⟨e, he, rfl⟩ := List.mem_map.1 hd
  exact Nat.eq_zero_of_not_pos (hfree e he)

/-- The invariant holds after every run. -/
theorem good_run (p : Protocol A M) (netGetRand : G → UInt32 × G) (size : ℕ) (timer : UInt32)
    (events : List (Event A M G)) :
    Good p (run (historyStep p netGetRand fun a filter => decide (Pending a filter))
      (start p size timer) events) :=
  run_invariant (P := fun _ _ => True) (fun _ event hs _ => hs.historyStep netGetRand event)
    (good_start p size timer) (Along.of_forall (fun _ _ => trivial) _ _)

end Events

/-! ## When a group is left -/

section Leaving

variable {A M G : Type*} [DecidableEq A] {p : Protocol A M} {s : History A}

theorem mem_sendLeave {v : Bool} {a b : A} : (.leave b : Sent A) ∈ sendLeave p v a ↔
    b = a ∧ p.isMulticastAddr a = true ∧ a ≠ p.allNodesAddr ∧
      ¬ (p.compatibility = true ∧ v = true) := by
  rw [sendLeave]
  split_ifs with hmulticast hall hquerier
  · simp_all
  · simp_all
  · simp_all
  · simp_all

omit [DecidableEq A] in
/-- An entry that is replaced by one that is not in use leaves its group. -/
theorem Good.not_inUse_set (h : Good p s) {i : ℕ} {e e' : FilterEntry A}
    (he : s.interface.multicastFilter[i]? = some e) (hpos : 0 < e.refCount)
    (hzero : e'.refCount = 0) : ¬ InUse e.addr (s.interface.multicastFilter.set i e') := by
  obtain ⟨pre, post, hsplit, hreplace, -⟩ := RefTable.split_at he
  have hdistinct := h.distinct
  rw [hsplit, List.map_append, List.map_cons] at hdistinct
  rw [hreplace]
  rintro ⟨d, hd, hdpos, haddr⟩
  have hother : d ∈ pre ++ post → False := by
    intro hd
    refine hdistinct.others hpos d.toRefEntry ?_ hdpos haddr
    rw [← List.map_append]
    exact List.mem_map_of_mem hd
  rcases List.mem_append.1 hd with hd | hd
  · exact hother (List.mem_append_left _ hd)
  · rcases List.mem_cons.1 hd with rfl | hd
    · omega
    · exact hother (List.mem_append_right _ hd)

omit [DecidableEq A] in
theorem recount_refCount {e : FilterEntry A} (hpos : 0 < e.refCount) (n : ℕ) :
    (e.recount n).refCount = n := by
  rw [FilterEntry.recount, dif_neg (Nat.pos_iff_ne_zero.1 hpos)]

/-- What is sent when a group is left. -/
theorem Good.mem_leave (h : Good p s) (netGetRand : G → UInt32 × G) (left groupAddr : A) :
    .leave groupAddr ∈ (step p netGetRand s.interface (.leave left)).2 ↔
      left = groupAddr ∧ InUse groupAddr s.interface.multicastFilter ∧
        ¬ InUse groupAddr (step p netGetRand s.interface (.leave left)).1.multicastFilter ∧
        s.interface.linkState = true ∧
        ¬ (p.compatibility = true ∧ s.interface.igmpv1RouterPresent = true) ∧
        (s.reports groupAddr).getLast? = some .host := by
  have hstep : step p netGetRand s.interface (.leave left) =
      leaveMulticastGroup p s.interface left := rfl
  rw [hstep]
  rcases leave_cases h left with ⟨hnot, hleave⟩ |
    ⟨i, e, interface, he, hpos, rfl, hlink, ⟨hlast, hleave, hset⟩ | ⟨hlast, hleave, hset⟩⟩
  · rw [hleave]
    refine iff_of_false List.not_mem_nil ?_
    rintro ⟨rfl, hin, -⟩
    exact hnot hin
  · rw [hleave]
    refine iff_of_false List.not_mem_nil ?_
    rintro ⟨rfl, -, hout, -⟩
    refine hout ⟨e.recount (e.refCount - 1), ?_, ?_, (recount_same _).1⟩
    · rw [hset]
      exact List.mem_set (List.getElem?_eq_some_iff.1 he).1 _
    · rw [recount_refCount hpos]
      exact Nat.pos_of_ne_zero hlast
  · have hmem : e ∈ s.interface.multicastFilter := List.mem_of_getElem? he
    have hout : ¬ InUse e.addr interface.multicastFilter := by
      rw [hset]
      exact h.not_inUse_set he hpos rfl
    rw [hleave]
    by_cases hup : s.interface.linkState = true
    swap
    · refine iff_of_false ?_ fun hall => hup hall.2.2.2.1
      simp only [leaveGroup, if_neg hup]
      exact List.not_mem_nil
    by_cases hall : e.addr = p.allNodesAddr
    · refine iff_of_false ?_ ?_
      · simp only [leaveGroup, if_pos hup, (h.special e hmem hpos hall).1, Bool.false_eq_true,
          if_false]
        exact List.not_mem_nil
      · rintro ⟨rfl, -, -, -, -, hhost⟩
        refine h.quiet (List.mem_of_getLast? ?_)
        rwa [← hall]
    · have hflag := h.last hup e hmem hpos hall
      simp only [leaveGroup, if_pos hup]
      by_cases hset' : e.flag = true
      · rw [if_pos hset', mem_sendLeave]
        constructor
        · rintro ⟨rfl, -, -, hquerier⟩
          exact ⟨rfl, ⟨e, hmem, hpos, rfl⟩, hout, hup, hquerier, hflag.1 hset'⟩
        · rintro ⟨rfl, -, -, -, hquerier, -⟩
          exact ⟨rfl, h.multicast e hmem hpos, hall, hquerier⟩
      · rw [if_neg hset']
        refine iff_of_false List.not_mem_nil ?_
        rintro ⟨rfl, -, -, -, -, hhost⟩
        exact hset' (hflag.2 hhost)

/-- No other event sends such a message. -/
theorem leave_of_mem (netGetRand : G → UInt32 × G) {interface : NetInterface A}
    {event : Event A M G} {groupAddr : A}
    (h : .leave groupAddr ∈ (step p netGetRand interface event).2) : ∃ left, event = .leave left := by
  have heach : ∀ {f : FilterEntry A → FilterEntry A × List (Sent A)}, Local p f →
      ∀ {interface : NetInterface A}, .leave groupAddr ∉ (forEach f interface).2 := by
    intro f hf interface hm
    obtain ⟨v, e, -, hreport, -⟩ := hf.report hm
    cases hreport
  cases event with
  | leave left => exact ⟨left, rfl⟩
  | join a accepted time =>
      rw [step, joinMulticastGroup] at h
      by_cases hmulticast : (!p.isMulticastAddr a) = true
      · rw [if_pos hmulticast] at h
        cases h
      rw [if_neg hmulticast] at h
      cases hfind : find a interface.multicastFilter with
      | some i =>
          cases he : interface.multicastFilter[i]? with
          | none =>
              simp only [hfind, he] at h
              cases h
          | some e =>
              simp only [hfind, he] at h
              cases h
      | none =>
          cases hfree : interface.multicastFilter.findIdx? fun e => e.refCount = 0 with
          | none =>
              simp only [hfind, hfree] at h
              cases h
          | some i =>
              cases he : interface.multicastFilter[i]? with
              | none =>
                  simp only [hfind, hfree, he] at h
                  cases h
              | some e =>
                  simp only [hfind, hfree, he] at h
                  split_ifs at h
                  · obtain ⟨-, v, hv⟩ := mem_joinGroup h
                    cases hv
                  · cases h
  | tick time => exact absurd h (heach (tickEntry_local p _ time))
  | linkChange up time =>
      cases up with
      | true => exact absurd h (heach (linkUpEntry_local p _ time))
      | false => exact absurd h (heach (linkDownEntry_local p))
  | query message time g => cases h
  | report message => cases h

/-- A Leave Group or Done message is sent if and only if the group is left, the link is up, the
querier is not running IGMPv1, and the last report for the group since it was joined is the
interface's own; the reports of others count while the own report is pending. -/
def LeavesIfLast (p : Protocol A M) : Prop :=
  ∀ (G : Type) (netGetRand : G → UInt32 × G) (size : ℕ) (timer : UInt32)
    (events : List (Event A M G)) (event : Event A M G) (groupAddr : A),
    let s := run (historyStep p netGetRand fun a filter => decide (Pending a filter))
      (start p size timer) events
    .leave groupAddr ∈ (step p netGetRand s.interface event).2 ↔
      event = .leave groupAddr ∧ InUse groupAddr s.interface.multicastFilter ∧
        ¬ InUse groupAddr (step p netGetRand s.interface event).1.multicastFilter ∧
        s.interface.linkState = true ∧
        ¬ (p.compatibility = true ∧ s.interface.igmpv1RouterPresent = true) ∧
        (s.reports groupAddr).getLast? = some .host

theorem leavesIfLast (p : Protocol A M) : LeavesIfLast p := by
  intro G netGetRand size timer events event groupAddr s
  have hgood : Good p s := good_run p netGetRand size timer events
  by_cases hleave : ∃ left, event = .leave left
  · obtain ⟨left, rfl⟩ := hleave
    rw [hgood.mem_leave netGetRand left groupAddr, Event.leave.injEq]
  · refine iff_of_false (fun h => hleave (leave_of_mem netGetRand h)) ?_
    rintro ⟨rfl, -⟩
    exact hleave ⟨groupAddr, rfl⟩

end Leaving

/-! ## Queries are answered in time -/

/-- **Multicast queries.** Behind an IGMP query every group that it addresses has its report
pending, due within the time the query allows and not later than it was before, and the other groups
are unchanged; so are the groups behind a valid MLD query, apart from the time allowed. A group is
left with a message if and only if the last report that counts was the interface's own. -/
theorem multicastQueries_answered :
    (∀ (G : Type) (netGetRand : G → UInt32 × G) (interface : NetInterface Ipv4Addr)
      (message : IgmpMessage) (time : UInt32) (g : G),
      List.Forall₂ (fun e e' => Answered igmp message.groupAddr time e e' ∧
        (Addressed igmp message.groupAddr e → DueWithin time
          (if message.maxRespTime = 0 then 10000 else 100 * message.maxRespTime.toNat) e'))
        interface.multicastFilter
        (igmpProcessQueryMessage netGetRand interface message time g).1.multicastFilter) ∧
    (∀ (G : Type) (netGetRand : G → UInt32 × G) (interface : NetInterface Ipv6Addr)
      (packet : MldPacket) (time : UInt32) (g : G),
      match mldCheck packet with
      | none => (mldProcessListenerQuery netGetRand interface packet time g).1 = interface
      | some message => List.Forall₂ (Answered mld message.multicastAddr time)
          interface.multicastFilter
          (mldProcessListenerQuery netGetRand interface packet time g).1.multicastFilter) ∧
    LeavesIfLast igmp ∧ LeavesIfLast mld := by
  refine ⟨fun G netGetRand interface message time g => ?_,
    fun G netGetRand interface packet time g => ?_, leavesIfLast igmp, leavesIfLast mld⟩
  · have hq : igmp.queried message = some (igmpQuery message) := rfl
    have hgroup : (igmpQuery message).groupAddr = message.groupAddr := by
      rw [igmpQuery]
      split_ifs <;> rfl
    have htime : (igmpQuery message).maxRespTime.toNat ≤
        if message.maxRespTime = 0 then 10000 else 100 * message.maxRespTime.toNat := by
      rw [igmpQuery]
      split_ifs with hzero
      · exact le_rfl
      · have hlt := message.maxRespTime.toNat_lt
        show (message.maxRespTime.toUInt32 * 10).toNat ≤ _
        rw [UInt32.toNat_mul, UInt8.toNat_toUInt32]
        exact (Nat.mod_le _ _).trans (by show _ * 10 ≤ _; omega)
    rw [igmpProcessQueryMessage, processQuery_filter hq, ← hgroup]
    refine (queryLoop_answered igmp netGetRand _ time _ g).imp fun e e' h => ⟨h.1, fun haddr => ?_⟩
    exact (h.2 haddr).trans (Int.ofNat_le.2 htime)
  · cases hcheck : mldCheck packet with
    | none =>
        have hq : mld.queried packet = none := by
          show (mldCheck packet).map mldQuery = none
          rw [hcheck, Option.map_none]
        show (mldProcessListenerQuery netGetRand interface packet time g).1 = interface
        rw [mldProcessListenerQuery, processQuery, hq]
    | some message =>
        have hq : mld.queried packet = some (mldQuery message) := by
          show (mldCheck packet).map mldQuery = _
          rw [hcheck, Option.map_some]
        show List.Forall₂ _ _
          (mldProcessListenerQuery netGetRand interface packet time g).1.multicastFilter
        rw [mldProcessListenerQuery, processQuery_filter hq]
        exact (queryLoop_answered mld netGetRand _ time _ g).imp fun e e' h => h.1

/-- A Leave Group message is sent although another host was the last to report the group: its report
was heard in the Idle state. -/
theorem igmpLeaveGroup_idle : ¬ ∀ (G : Type) (netGetRand : G → UInt32 × G) (size : ℕ)
    (timer : UInt32) (events : List (Event Ipv4Addr IgmpMessage G)) (groupAddr : Ipv4Addr),
    let s := run (historyStep igmp netGetRand fun _ _ => true) (start igmp size timer) events
    .leave groupAddr ∈ (step igmp netGetRand s.interface (.leave groupAddr)).2 ↔
      InUse groupAddr s.interface.multicastFilter ∧
        ¬ InUse groupAddr
          (step igmp netGetRand s.interface (.leave groupAddr)).1.multicastFilter ∧
        s.interface.linkState = true ∧ (s.reports groupAddr).getLast? = some .host := by
  intro h
  have hleave := h Unit (fun _ => (0, ())) Multicast.IPV4_MULTICAST_FILTER_SIZE 0
    [.linkChange true 0, .join 0xE1000001 true 1000, .tick 20000,
      .report { maxRespTime := 0, groupAddr := 0xE1000001 }] 0xE1000001
  revert hleave
  decide +kernel

/-- The octets of a delay of 1000 milliseconds, in the wrong order and times ten. -/
example : (mldProcessListenerQuery (fun _ : Unit => (593950, ()))
    { linkState := true, igmpv1RouterPresent := false, igmpv1RouterPresentTimer := 0
      multicastFilter := [{ addr := 0xFF020000000000000000000000000042, refCount := 1
                            state := .idleMember, flag := true, timer := 0, member := by decide }] }
    { length := 24, message := some { maxRespDelay := 0xE803, multicastAddr := 0 }
      srcAddr := 0xFE800000000000000000000000000001, hopLimit := 1 } 0 ()).1.multicastFilter.map
      FilterEntry.timer = [593950] := by
  decide +kernel

end GroupReports
