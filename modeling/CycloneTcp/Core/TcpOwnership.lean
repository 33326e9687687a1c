import CycloneTcp.Core.TcpTable

set_option autoImplicit false

/-! # Who holds a socket

A handle is held from the call that returns it until it is closed. A socket that is held must not be given
to another task, and a socket that has been closed has to become available again. A socket in the
TIME-WAIT state has an owner or not; the code looks at it where the 2MSL timer or a reset ends the state,
but neither where `socketOpen` runs out of entries nor where the persist timer gives the connection
up. -/

namespace Tcp

open Handles

/-! ## One entry -/

/-- The socket of an entry that is held, or that `tcpAccept` sets up. -/
structure Socket.Kept (s : Socket) : Prop where
  type : s.type ≠ .unused
  owned : s.ownedFlag = true ∨ s.state = .closed ∨ s.state = .listen

/-- What is left of a socket that has been closed. -/
def Socket.Left (s : Socket) : Prop :=
  s.type = .unused ∨ (s.type = .stream ∧ s.state = .timeWait ∧ s.ownedFlag = false)

/-- The step concerns neither the user that holds the socket nor the one that may get it next. -/
structure Harmless (s s' : Socket) : Prop where
  type : s.Kept → s'.type = s.type
  kept : s.Kept → s'.Kept
  left : s.Left → s'.Left

theorem Harmless.refl (s : Socket) : Harmless s s := ⟨fun _ => rfl, id, id⟩

/-- A socket that is held was not in the TIME-WAIT state without an owner. -/
theorem Socket.Kept.owned_of_timeWait {s : Socket} (h : s.Kept) (hstate : s.state = .timeWait) :
    s.ownedFlag = true := by
  rcases h.owned with howned | hclosed | hlisten
  · exact howned
  · exact absurd (hstate.symm.trans hclosed) (by simp)
  · exact absurd (hstate.symm.trans hlisten) (by simp)

theorem Socket.Kept.not_left {s : Socket} (h : s.Kept) : ¬ s.Left := by
  rintro (htype | ⟨-, hstate, howned⟩)
  · exact h.type htype
  · rw [h.owned_of_timeWait hstate] at howned
    exact absurd howned (by simp)

theorem Serviced.harmless {queues : Prop} {s s' : Socket} (h : Serviced queues s s')
    (hleft : s.state = .timeWait → s.ownedFlag = false → s'.state = .timeWait ∨ s'.type = .unused)
    (hused : s.type = .stream) : Harmless s s' := by
  have hends : s.Kept → SameEnds { s with synQueue := s'.synQueue } s' := by
    intro hkept
    rcases h.ends with hends | ⟨hstate, howned, -⟩
    · exact hends
    · exact absurd (.inr ⟨hused, hstate, howned⟩) hkept.not_left
  refine ⟨fun hkept => (hends hkept).type, fun hkept => ⟨?_, ?_⟩, fun hold => ?_⟩
  · rw [(hends hkept).type]
    exact hkept.type
  · rw [(hends hkept).ownedFlag]
    rcases hkept.owned with howned | hpassive
    · exact .inl howned
    · rcases h.passive hpassive with hsame | hclosed
      · rw [hsame]
        exact .inr hpassive
      · exact .inr (.inl hclosed)
  · rcases hold with htype | ⟨-, hstate, howned⟩
    · exact absurd (hused.symm.trans htype) (by simp)
    · rcases hleft hstate howned with hstate' | htype'
      · rcases h.ends with hends | ⟨-, -, htype', -⟩
        · exact .inr ⟨hends.type.trans hused, hstate', hends.ownedFlag.trans howned⟩
        · exact .inl htype'
      · exact .inl htype'

/-- A call is harmless unless it sends a FIN on a socket that has no owner. -/
theorem Called.harmless {slot : Slot} {s' : Socket} {event : Event} (h : Called slot s' event)
    (hfin : resumesFin slot event = true →
      slot.socket.type = .unused ∨ slot.socket.ownedFlag = true) : Harmless slot.socket s' := by
  refine ⟨fun _ => h.type, fun hkept => ⟨h.type ▸ hkept.type, ?_⟩, fun hleft => ?_⟩
  · cases h with
    | same hends hstate =>
        rw [hends.ownedFlag]
        rcases hkept.owned with howned | hpassive
        · exact .inl howned
        · rcases hstate with hstate | hsends | ⟨-, hlisten⟩ | hresumes
          · rw [hstate]
            exact .inr hpassive
          · rcases hpassive with hpassive | hpassive <;> rw [hpassive] at hsends <;>
              simp [TcpState.Sends] at hsends
          · exact .inr (.inr hlisten)
          · exact .inl ((hfin hresumes).resolve_left hkept.type)
    | connect remoteIpAddr remotePort env htype hclosed hconnected =>
        cases hconnected with
        | failed _ hclosed' => exact .inr (.inl hclosed')
        | sent interface addr hsource hends => exact .inl hends.ownedFlag
  · rcases hleft with htype | ⟨htype, hstate, howned⟩
    · exact .inl (h.type.trans htype)
    · refine .inr ⟨h.type.trans htype, ?_⟩
      cases h with
      | same hends hcase =>
          refine ⟨?_, hends.ownedFlag.trans howned⟩
          rcases hcase with hsame | hsends | ⟨hclosed, -⟩ | hresumes
          · exact hsame.trans hstate
          · rw [hstate] at hsends
            simp [TcpState.Sends] at hsends
          · exact absurd (hstate.symm.trans hclosed) (by simp)
          · rcases hfin hresumes with hunused | howned'
            · exact absurd (htype.symm.trans hunused) (by simp)
            · rw [howned] at howned'
              exact absurd howned' (by simp)
      | connect remoteIpAddr remotePort env htype hclosed hconnected =>
          exact absurd (hstate.symm.trans hclosed) (by simp)

/-- `socketClose` leaves the socket unused, or to the 2MSL timer. -/
theorem socketClose_left (s : Socket) : (Table.socketClose s).Left := by
  rw [Table.socketClose]
  split
  case h_1 htype =>
    rcases tcpAbort_ends s with ⟨hunused, -⟩ | ⟨hstate, heq⟩
    · exact .inl hunused
    · rw [heq]
      exact .inr ⟨htype, hstate, rfl⟩
  case h_2 => exact .inl rfl

/-! ## The table -/

namespace Table

/-- The sockets that calls of `tcpAccept` set up. -/
def opening (table : Table) : List ℕ := table.accepting.filterMap Prod.snd

/-- Only handles that are held are closed. -/
def ClosesHeld (table : Table) : TableEvent → Prop
  | .close i => i ∈ held table.log
  | _ => True

/-- `socketOpen` does not take a connection that has an owner. -/
def TakesUnowned (table : Table) (env : OpenEnv) : Prop :=
  ∀ slot ∈ (entryToOpen table.slots env.age).bind (table.slots[·]?),
    slot.socket.type = .unused ∨ slot.socket.ownedFlag = false

instance (table : Table) (env : OpenEnv) : Decidable (table.TakesUnowned env) :=
  inferInstanceAs (Decidable (∀ slot ∈ (entryToOpen table.slots env.age).bind (table.slots[·]?), _))

/-- No blocked call goes on to send a FIN on a socket that has no owner. -/
def SendsOwnedFin (table : Table) (i : ℕ) (event : Event) : Prop :=
  ∀ slot ∈ table.slots[i]?, resumesFin slot event = true →
    slot.socket.type = .unused ∨ slot.socket.ownedFlag = true

instance (table : Table) (i : ℕ) (event : Event) : Decidable (table.SendsOwnedFin i event) :=
  inferInstanceAs (Decidable (∀ slot ∈ table.slots[i]?, _))

/-- No timer gives up a connection in the TIME-WAIT state that has no owner. -/
def KeepsTimeWait (table : Table) (elapsed : ℕ → Elapsed) : Prop :=
  ∀ i, ∀ slot ∈ table.slots[i]?, slot.socket.type = .stream → slot.socket.state = .timeWait →
    slot.socket.ownedFlag = false →
    ¬ retransmitExhausted slot.socket (elapsed i) ∧ ¬ probesExhausted slot.socket (elapsed i)

/-- The step looks at the owner of a socket where it matters. -/
def Undisturbed (table : Table) : TableEvent → Prop
  | .open _ env | .acceptOpen _ env => table.TakesUnowned env
  | .call i event _ => table.SendsOwnedFin i event
  | .tick elapsed => table.KeepsTimeWait elapsed
  | _ => True

/-- Every handle that is returned is held by nobody, and every entry that nobody holds or sets up is
unused or in the TIME-WAIT state, and can be opened. -/
structure HandlesOwned (table : Table) : Prop where
  returned : Disciplined ∅ table.log
  closed : ∀ i, ∀ slot ∈ table.slots[i]?, i ∉ held table.log → i ∉ table.opening →
    slot.socket.type = .unused ∨ (slot.socket.type = .stream ∧ slot.socket.state = .timeWait)
  available : ∀ i < table.slots.length, i ∉ held table.log → i ∉ table.opening →
    ∀ type env, type ≠ .unused → (table.socketOpen type env).1 ≠ none

/-- An entry that is held, or that `tcpAccept` sets up, or that is left. -/
structure Entry (isHeld isOpening : Prop) (s : Socket) : Prop where
  stream : isOpening → s.type = .stream
  kept : isHeld ∨ isOpening → s.Kept
  left : ¬ isHeld → ¬ isOpening → s.Left

theorem Entry.harmless {H O : Prop} {s s' : Socket} (h : Entry H O s) (hs : Harmless s s') :
    Entry H O s' :=
  ⟨fun hO => (hs.type (h.kept (.inr hO))).trans (h.stream hO), fun hHO => hs.kept (h.kept hHO),
    fun hH hO => hs.left (h.left hH hO)⟩

theorem Entry.congr {H O H' O' : Prop} {s : Socket} (h : Entry H O s) (hH : H' ↔ H) (hO : O' ↔ O) :
    Entry H' O' s :=
  ⟨fun h' => h.stream (hO.1 h'), fun h' => h.kept (h'.imp hH.1 hO.1),
    fun h1 h2 => h.left (fun h' => h1 (hH.2 h')) (fun h' => h2 (hO.2 h'))⟩

/-- The invariant. -/
structure Owned (table : Table) : Prop where
  disciplined : Disciplined ∅ table.log
  nodup : table.opening.Nodup
  disjoint : ∀ i ∈ table.opening, i ∉ held table.log
  entry : ∀ i, ∀ slot ∈ table.slots[i]?, Entry (i ∈ held table.log) (i ∈ table.opening) slot.socket

/-- What a change of one entry leaves of the others. -/
theorem mem_modify {slots : List Slot} {i j : ℕ} {f : Slot → Slot} {slot : Slot}
    (h : slot ∈ (slots.modify i f)[j]?) :
    (j ≠ i ∧ slot ∈ slots[j]?) ∨ (j = i ∧ ∃ old ∈ slots[i]?, slot = f old) := by
  rw [List.getElem?_modify, Option.mem_def, Option.map_eq_map, Option.map_eq_some_iff] at h
  obtain ⟨old, hold, heq⟩ := h
  by_cases hij : i = j
  · subst hij
    rw [if_pos rfl] at heq
    exact .inr ⟨rfl, old, hold, heq.symm⟩
  · rw [if_neg hij] at heq
    exact .inl ⟨fun hji => hij hji.symm, heq ▸ hold⟩

theorem mem_mapIdx {slots : List Slot} {j : ℕ} {f : ℕ → Slot → Slot} {slot : Slot}
    (h : slot ∈ (slots.mapIdx f)[j]?) : ∃ old ∈ slots[j]?, slot = f j old := by
  rw [List.getElem?_mapIdx, Option.mem_def, Option.map_eq_some_iff] at h
  obtain ⟨old, hold, heq⟩ := h
  exact ⟨old, hold, heq.symm⟩

theorem Owned.modify {table : Table} (h : table.Owned) (i : ℕ) {f : Slot → Slot}
    (hf : ∀ slot ∈ table.slots[i]?, Harmless slot.socket (f slot).socket) :
    Owned { table with slots := table.slots.modify i f } := by
  refine ⟨h.disciplined, h.nodup, h.disjoint, fun j slot hslot => ?_⟩
  rcases mem_modify hslot with ⟨-, hold⟩ | ⟨rfl, old, hold, rfl⟩
  · exact h.entry j slot hold
  · exact (h.entry j old hold).harmless (hf old hold)

/-! ## Opening -/

/-- The entry of the oldest connection, if there is one. -/
theorem oldestConnection_some {age : ℕ → UInt32} {slots : List Slot} {i j : ℕ} {oldest : Option ℕ}
    (h : oldestConnection age slots i oldest = some j) :
    oldest = some j ∨ i ≤ j ∧ ∃ slot ∈ slots[j - i]?, slot.socket.type = .stream ∧
      slot.socket.state = .timeWait := by
  induction slots generalizing i oldest with
  | nil => exact .inl h
  | cons slot slots ih =>
      have hshift : ∀ {k : ℕ}, i + 1 ≤ k → slots[k - (i + 1)]? = (slot :: slots)[k - i]? := by
        intro k hk
        have hsub : k - i = (k - (i + 1)) + 1 := by omega
        rw [hsub, List.getElem?_cons_succ]
      rw [oldestConnection] at h
      split at h
      case isTrue hwait =>
        rcases ih h with hfirst | ⟨hle, other, hother, hcase⟩
        · rw [Option.some.injEq] at hfirst
          split at hfirst
          · subst hfirst
            exact .inr ⟨le_rfl, slot, by simp, hwait⟩
          · cases oldest with
            | none =>
                have hij : i = j := hfirst
                subst hij
                exact .inr ⟨le_rfl, slot, by simp, hwait⟩
            | some k => exact .inl (congrArg some hfirst)
        · rw [hshift hle] at hother
          exact .inr ⟨by omega, other, hother, hcase⟩
      case isFalse =>
        rcases ih h with hfirst | ⟨hle, other, hother, hcase⟩
        · exact .inl hfirst
        · rw [hshift hle] at hother
          exact .inr ⟨by omega, other, hother, hcase⟩

theorem oldestConnection_none {age : ℕ → UInt32} {slots : List Slot} {i : ℕ} {oldest : Option ℕ}
    (h : oldestConnection age slots i oldest = none) :
    oldest = none ∧ ∀ slot ∈ slots, ¬ (slot.socket.type = .stream ∧ slot.socket.state = .timeWait) := by
  induction slots generalizing i oldest with
  | nil => exact ⟨h, by simp⟩
  | cons slot slots ih =>
      rw [oldestConnection] at h
      split at h
      case isTrue hwait => exact absurd (ih h).1 (by simp)
      case isFalse hwait =>
        obtain ⟨hnone, hrest⟩ := ih h
        refine ⟨hnone, fun other hother => ?_⟩
        rcases List.mem_cons.1 hother with rfl | hother
        · exact hwait
        · exact hrest other hother

/-- `socketOpen` takes an entry that is unused or in the TIME-WAIT state. -/
theorem entryToOpen_some {slots : List Slot} {age : ℕ → UInt32} {i : ℕ}
    (h : entryToOpen slots age = some i) :
    ∃ slot ∈ slots[i]?, slot.socket.type = .unused ∨
      (slot.socket.type = .stream ∧ slot.socket.state = .timeWait) := by
  rw [entryToOpen] at h
  split at h
  case h_1 j hfind =>
    rw [Option.some.injEq] at h
    subst h
    obtain ⟨hlt, hfree, -⟩ := List.findIdx?_eq_some_iff_getElem.1 hfind
    exact ⟨slots[j], by simp [hlt], .inl (by simpa [Slot.free] using hfree)⟩
  case h_2 =>
    rcases oldestConnection_some h with hnone | ⟨-, slot, hslot, hcase⟩
    · exact absurd hnone (by simp)
    · exact ⟨slot, by simpa using hslot, .inr hcase⟩

theorem entryToOpen_none {slots : List Slot} {age : ℕ → UInt32}
    (h : entryToOpen slots age = none) : ∀ slot ∈ slots, ¬ (slot.socket.type = .unused ∨
      (slot.socket.type = .stream ∧ slot.socket.state = .timeWait)) := by
  rw [entryToOpen] at h
  split at h
  case h_1 => exact absurd h (by simp)
  case h_2 hfind =>
    intro slot hslot
    rintro (hunused | hwait)
    · have hfree := List.findIdx?_eq_none_iff.1 hfind slot hslot
      simp [Slot.free, hunused] at hfree
    · exact (oldestConnection_none h).2 slot hslot hwait

/-- `socketOpen` fails, or it takes an entry that is unused or in the TIME-WAIT state. -/
inductive Opening (table : Table) (type : SocketType) (env : OpenEnv) : Option ℕ × Table → Prop
  | fail (next : ℕ) : Opening table type env (none, { table with tcpDynamicPort := next })
  | take (next i : ℕ) (port : UInt16) (htype : type ≠ .unused) (slot : Slot)
      (hslot : slot ∈ table.slots[i]?) (hentry : entryToOpen table.slots env.age = some i)
      (hcase : slot.socket.type = .unused ∨
        (slot.socket.type = .stream ∧ slot.socket.state = .timeWait)) :
      Opening table type env (some i, { table with
        slots := table.slots.modify i fun slot => slot.setSocket (reuseEntry slot.socket type port)
        tcpDynamicPort := next })

theorem socketOpen_opening (table : Table) (type : SocketType) (env : OpenEnv) :
    Opening table type env (table.socketOpen type env) := by
  rw [socketOpen]
  split
  case h_1 => exact .fail table.tcpDynamicPort
  case h_2 port next hport =>
    have htype : type ≠ .unused := by
      rintro rfl
      exact absurd hport (by simp [newPort])
    simp only
    split
    case h_1 => exact .fail next
    case h_2 i hentry =>
      obtain ⟨slot, hslot, hcase⟩ := entryToOpen_some hentry
      exact .take next i port htype slot hslot hentry hcase

theorem reuseEntry_kept (s : Socket) {type : SocketType} (port : UInt16) (htype : type ≠ .unused) :
    (reuseEntry s type port).Kept ∧ (reuseEntry s type port).type = type :=
  ⟨⟨htype, .inr (.inl rfl)⟩, rfl⟩

/-- The entry that is taken is not held, and no call of `tcpAccept` sets it up. -/
theorem Owned.free {table : Table} (h : table.Owned) {i : ℕ} {slot : Slot}
    (hslot : slot ∈ table.slots[i]?)
    (hcase : slot.socket.type = .unused ∨
      (slot.socket.type = .stream ∧ slot.socket.state = .timeWait))
    (howner : slot.socket.type = .unused ∨ slot.socket.ownedFlag = false) :
    i ∉ held table.log ∧ i ∉ table.opening := by
  have hleft : slot.socket.Left := by
    rcases hcase with hunused | ⟨htype, hstate⟩
    · exact .inl hunused
    · rcases howner with hunused | howner
      · exact .inl hunused
      · exact .inr ⟨htype, hstate, howner⟩
  exact ⟨fun hheld => ((h.entry i slot hslot).kept (.inl hheld)).not_left hleft,
    fun hopening => ((h.entry i slot hslot).kept (.inr hopening)).not_left hleft⟩

/-! ## Steps -/

/-- One entry is replaced, and with it what is recorded of it. -/
theorem Owned.replace {table table' : Table} (h : table.Owned) {i : ℕ} {f : Slot → Slot}
    (hslots : table'.slots = table.slots.modify i f)
    (hheld : ∀ j, j ≠ i → (j ∈ held table'.log ↔ j ∈ held table.log))
    (hopening : ∀ j, j ≠ i → (j ∈ table'.opening ↔ j ∈ table.opening))
    (hentry : ∀ slot ∈ table.slots[i]?,
      Entry (i ∈ held table'.log) (i ∈ table'.opening) (f slot).socket) :
    ∀ j, ∀ slot ∈ table'.slots[j]?,
      Entry (j ∈ held table'.log) (j ∈ table'.opening) slot.socket := by
  intro j slot hslot
  rw [hslots] at hslot
  rcases mem_modify hslot with ⟨hne, hold⟩ | ⟨rfl, old, hold, rfl⟩
  · exact (h.entry j slot hold).congr (hheld j hne) (hopening j hne)
  · exact hentry old hold

theorem mem_held_acquire {log : List (Use ℕ)} {i j : ℕ} (h : j ≠ i) :
    j ∈ held (log ++ [.acquire i]) ↔ j ∈ held log := by
  simp [Use.apply, h]

theorem mem_held_release {log : List (Use ℕ)} {i j : ℕ} (h : j ≠ i) :
    j ∈ held (log ++ [.release i]) ↔ j ∈ held log := by
  simp [Use.apply, h]

theorem Owned.open {table : Table} (h : table.Owned) {type : SocketType} {env : OpenEnv}
    (hevent : table.Undisturbed (.open type env)) : (table.step (.open type env)).Owned := by
  have hopen := socketOpen_opening table type env
  rw [step]
  generalize table.socketOpen type env = result at hopen ⊢
  cases hopen with
  | fail next => exact ⟨h.disciplined, h.nodup, h.disjoint, h.entry⟩
  | take next i port htype slot hslot hentry hcase =>
      obtain ⟨hheld, hopening⟩ := h.free hslot hcase (hevent slot (by rw [hentry]; exact hslot))
      refine ⟨disciplined_concat h.disciplined hheld, h.nodup, ?_,
        h.replace rfl (fun j hj => mem_held_acquire hj) (fun _ _ => Iff.rfl) ?_⟩
      · intro j hj
        have hne : j ≠ i := fun hji => hopening (hji ▸ hj)
        exact fun hmem => h.disjoint j hj ((mem_held_acquire hne).1 hmem)
      · intro old _
        obtain ⟨hkept, -⟩ := reuseEntry_kept old.socket port htype
        exact ⟨fun hmem => absurd hmem hopening, fun _ => hkept,
          fun hmem => absurd (by simp [give, Use.apply]) hmem⟩

theorem Owned.acceptOpen {table : Table} (h : table.Owned) {i : ℕ} {env : OpenEnv}
    (hevent : table.Undisturbed (.acceptOpen i env)) : (table.acceptOpen i env).Owned := by
  rw [Table.acceptOpen]
  split
  · exact h
  split
  · exact h
  have hopen := socketOpen_opening table .stream env
  generalize table.socketOpen .stream env = result at hopen ⊢
  cases hopen with
  | fail next =>
      have hopening : (table.accepting ++ [(i, none)]).filterMap Prod.snd = table.opening := by
        simp [opening]
      refine ⟨h.disciplined, ?_, ?_, ?_⟩
      all_goals simp only [opening, hopening]
      · exact h.nodup
      · exact h.disjoint
      · exact h.entry
  | take next j port htype slot hslot hentry hcase =>
      obtain ⟨hheld, hfree⟩ := h.free hslot hcase (hevent slot (by rw [hentry]; exact hslot))
      have hopening : (table.accepting ++ [(i, some j)]).filterMap Prod.snd
          = table.opening ++ [j] := by
        simp [opening]
      refine ⟨h.disciplined, ?_, ?_, h.replace rfl (fun _ _ => Iff.rfl) ?_ ?_⟩
      all_goals simp only [opening, hopening]
      · exact List.nodup_append.2 ⟨h.nodup, List.nodup_singleton j, by
          intro a ha b hb hab
          rw [List.mem_singleton] at hb
          exact hfree (hb ▸ hab ▸ ha)⟩
      · intro m hm
        rcases List.mem_append.1 hm with hm | hm
        · exact h.disjoint m hm
        · rw [List.mem_singleton.1 hm]
          exact hheld
      · intro m hm
        simp [hm]
      · intro old _
        obtain ⟨hkept, htype'⟩ := reuseEntry_kept old.socket port htype
        exact ⟨fun _ => htype', fun _ => hkept, fun _ hmem => absurd (by simp) hmem⟩

/-- A call of `tcpAccept` ends. -/
theorem opening_eraseIdx {accepting : List (ℕ × Option ℕ)} {k : ℕ} {p : ℕ × Option ℕ}
    (h : accepting[k]? = some p) :
    ∃ before after, accepting.filterMap Prod.snd = before ++ p.2.toList ++ after ∧
      (accepting.eraseIdx k).filterMap Prod.snd = before ++ after := by
  obtain ⟨hlt, rfl⟩ := List.getElem?_eq_some_iff.1 h
  refine ⟨(accepting.take k).filterMap Prod.snd, (accepting.drop (k + 1)).filterMap Prod.snd, ?_, ?_⟩
  · have hsplit : accepting = accepting.take k ++ accepting[k] :: accepting.drop (k + 1) := by
      rw [← List.drop_eq_getElem_cons hlt, List.take_append_drop]
    have hmap := congrArg (List.filterMap Prod.snd) hsplit
    rw [List.filterMap_append, List.filterMap_cons] at hmap
    rw [hmap, List.append_assoc]
    cases accepting[k].2 <;> rfl
  · rw [List.eraseIdx_eq_take_drop_succ, List.filterMap_append]

theorem dequeue_harmless (slot : Slot) : Harmless slot.socket (Tcp.step slot .dequeue).socket :=
  ⟨fun _ => rfl, fun h => ⟨h.type, h.owned⟩, id⟩

theorem Owned.removeRequest {table : Table} (h : table.Owned) (i : ℕ) :
    (table.removeRequest i).Owned :=
  h.modify i fun slot _ => dequeue_harmless slot

theorem Owned.acceptFinish {table : Table} (h : table.Owned) (k : ℕ) (queueItem : TcpSynQueueItem)
    (memory : Bool) (iss : UInt32) : (table.acceptFinish k queueItem memory iss).Owned := by
  rw [Table.acceptFinish]
  split
  · exact h
  case h_2 i hk =>
    obtain ⟨before, after, hopening, hrest⟩ := opening_eraseIdx hk
    rw [Option.toList_none, List.append_nil] at hopening
    have hsame : (table.accepting.eraseIdx k).filterMap Prod.snd = table.opening :=
      hrest.trans hopening.symm
    apply Owned.removeRequest
    refine ⟨h.disciplined, ?_, ?_, ?_⟩
    all_goals simp only [opening, hsame]
    · exact h.nodup
    · exact h.disjoint
    · exact h.entry
  case h_3 i j hk =>
    split
    case h_2 => exact h
    case h_1 listener newSocket hlistener hnew =>
      obtain ⟨before, after, hopening, hrest⟩ := opening_eraseIdx hk
      change table.opening = before ++ [j] ++ after at hopening
      have hmem : j ∈ table.opening := by
        rw [hopening]
        simp
      have hnodup := h.nodup
      rw [hopening, List.append_assoc, List.singleton_append, List.nodup_middle] at hnodup
      obtain ⟨hj, hnodup⟩ := List.nodup_cons.1 hnodup
      have hother : ∀ m, m ≠ j → (m ∈ before ++ after ↔ m ∈ table.opening) := by
        intro m hm
        rw [hopening]
        simp [hm]
      have hentry := h.entry j newSocket hnew
      have hkept := hentry.kept (.inr hmem)
      rcases acceptConnection_ends listener.socket newSocket.socket queueItem memory iss with
        ⟨herror, hends⟩ | ⟨herror, s', hstate, hends, heq⟩
      · simp only [herror, ne_eq, not_true_eq_false, if_false]
        apply Owned.removeRequest
        refine ⟨disciplined_concat h.disciplined (h.disjoint j hmem), ?_, ?_,
          h.replace rfl (fun m hm => mem_held_acquire hm) ?_ ?_⟩
        all_goals simp only [opening, give, hrest]
        · exact hnodup
        · intro m hm
          have hmj : m ≠ j := fun hmj => hj (hmj ▸ hm)
          rw [mem_held_acquire hmj]
          exact h.disjoint m ((hother m hmj).1 hm)
        · exact hother
        · intro old _
          refine ⟨fun hm => absurd hm hj, fun _ => ⟨?_, .inl hends.ownedFlag⟩,
            fun hm => absurd (by simp [Use.apply]) hm⟩
          rw [Slot.setSocket]
          rw [hends.type]
          exact hkept.type
      · simp only [herror, ne_eq, not_false_eq_true, if_true]
        apply Owned.removeRequest
        refine ⟨h.disciplined, ?_, ?_, h.replace rfl (fun _ _ => Iff.rfl) ?_ ?_⟩
        all_goals simp only [opening, hrest]
        · exact hnodup
        · intro m hm
          exact h.disjoint m ((hother m fun hmj => hj (hmj ▸ hm)).1 hm)
        · exact hother
        · intro old _
          refine ⟨fun hm => absurd hm hj, fun hm => absurd hm ?_, fun _ _ => ?_⟩
          · exact not_or.2 ⟨h.disjoint j hmem, hj⟩
          · have htype : s'.type = newSocket.socket.type := by
              rcases hends with hends | hends <;> exact hends.type
            rw [Slot.setSocket, heq]
            rcases tcpAbort_ends s' with ⟨hunused, -⟩ | ⟨hwait, habort⟩
            · exact .inl hunused
            · rw [habort]
              exact .inr ⟨htype.trans (hentry.stream hmem), hwait, rfl⟩

theorem Owned.close {table : Table} (h : table.Owned) {i : ℕ} (hheld : i ∈ held table.log) :
    (table.step (.close i)).Owned := by
  refine ⟨disciplined_concat h.disciplined hheld, h.nodup, ?_,
    h.replace rfl (fun j hj => mem_held_release hj) (fun _ _ => Iff.rfl) ?_⟩
  · intro j hj
    have hne : j ≠ i := by
      rintro rfl
      exact h.disjoint j hj hheld
    rw [Table.step, mem_held_release hne]
    exact h.disjoint j hj
  · intro old _
    have hfree : i ∉ held (table.log ++ [.release i]) := by simp [Use.apply]
    exact ⟨fun hmem => absurd hheld (h.disjoint i hmem),
      fun hmem => absurd hmem (not_or.2 ⟨hfree, fun hmem => h.disjoint i hmem hheld⟩),
      fun _ _ => socketClose_left old.socket⟩

theorem socketBind_harmless (s : Socket) (localIpAddr : IpAddr) (localPort : UInt16) :
    Harmless s (socketBind s localIpAddr localPort) := by
  rw [socketBind]
  split
  · exact .refl s
  · exact ⟨fun _ => rfl, fun h => ⟨h.type, h.owned⟩, id⟩

theorem segment_harmless (slot : Slot) (segment : Segment) (memory : Bool) :
    Harmless slot.socket (Tcp.step slot (.segment segment memory)).socket := by
  rw [Tcp.step]
  split
  case isTrue htype =>
    obtain ⟨hserviced, hleft⟩ := tcpProcessSegment_serviced slot.socket segment memory
    exact hserviced.harmless hleft htype
  case isFalse => exact .refl _

theorem tick_harmless (slot : Slot) (elapsed : Elapsed)
    (h : slot.socket.type = .stream → slot.socket.state = .timeWait →
      slot.socket.ownedFlag = false → ¬ retransmitExhausted slot.socket elapsed ∧
        ¬ probesExhausted slot.socket elapsed) :
    Harmless slot.socket (Tcp.step slot (.tick elapsed)).socket := by
  rw [Tcp.step]
  split
  case isTrue htype =>
    obtain ⟨hserviced, hleft⟩ := tcpTick_serviced slot.socket elapsed
    refine hserviced.harmless (fun hstate howned => ?_) htype
    obtain ⟨hretransmit, hprobes⟩ := h htype hstate howned
    exact hleft hstate howned hretransmit hprobes
  case isFalse => exact .refl _

theorem Owned.step {table : Table} {event : TableEvent} (h : table.Owned)
    (hcloses : table.ClosesHeld event) (hevent : table.Undisturbed event) :
    (table.step event).Owned := by
  cases event with
  | «open» type env => exact h.open hevent
  | acceptOpen i env => exact h.acceptOpen hevent
  | acceptFinish k queueItem memory iss => exact h.acceptFinish k queueItem memory iss
  | bind i localIpAddr localPort =>
      exact h.modify i fun slot _ => socketBind_harmless slot.socket localIpAddr localPort
  | call i event isCall =>
      exact h.modify i fun slot hslot => (step_called slot isCall).harmless (hevent slot hslot)
  | close i => exact h.close hcloses
  | segment segment memory =>
      rw [Table.step]
      split
      · exact h
      case h_2 i _ => exact h.modify i fun slot _ => segment_harmless slot segment memory
  | tick elapsed =>
      refine ⟨h.disciplined, h.nodup, h.disjoint, fun i slot hslot => ?_⟩
      obtain ⟨old, hold, rfl⟩ := mem_mapIdx hslot
      exact (h.entry i old hold).harmless (tick_harmless old (elapsed i) (hevent i old hold))

theorem owned_init (n : ℕ) (outcomes : ℕ → ℕ → SendOutcome) : (init n outcomes).Owned where
  disciplined := trivial
  nodup := List.nodup_nil
  disjoint := by simp [init, opening]
  entry i slot hslot := by
    rw [init, Option.mem_def, List.getElem?_map, Option.map_eq_some_iff] at hslot
    obtain ⟨j, -, rfl⟩ := hslot
    exact ⟨by simp [init, opening], by simp [init, opening], fun _ _ => .inl rfl⟩

theorem Owned.handles {table : Table} (h : table.Owned) : table.HandlesOwned where
  returned := h.disciplined
  closed i slot hslot hheld hopening := by
    rcases (h.entry i slot hslot).left hheld hopening with hunused | ⟨htype, hstate, -⟩
    · exact .inl hunused
    · exact .inr ⟨htype, hstate⟩
  available i hi hheld hopening type env htype := by
    have hleft := (h.entry i table.slots[i] (by simp [hi])).left hheld hopening
    have hsome : entryToOpen table.slots env.age ≠ none := by
      intro hnone
      refine entryToOpen_none hnone table.slots[i] (List.getElem_mem hi) ?_
      exact hleft.imp id fun hleft => ⟨hleft.1, hleft.2.1⟩
    obtain ⟨j, hj⟩ := Option.ne_none_iff_exists'.1 hsome
    have hport : ∃ p, table.newPort env type = some p := by
      cases type with
      | unused => exact absurd rfl htype
      | _ => exact ⟨_, rfl⟩
    obtain ⟨p, hp⟩ := hport
    rw [socketOpen, hp]
    simp [hj]

/-- **A handle has one owner and no entry is lost** in every run in which no connection with an owner is
taken, no call sends a FIN on a socket without one, and no timer gives up a connection that has been
closed in the TIME-WAIT state. -/
theorem handlesOwned_of_undisturbed (n : ℕ) (outcomes : ℕ → ℕ → SendOutcome)
    (events : List TableEvent)
    (h : Along (fun table event => table.ClosesHeld event ∧ table.Undisturbed event) step
      (init n outcomes) events) :
    (run step (init n outcomes) events).HandlesOwned :=
  (run_invariant (I := Owned) (fun _ _ hinv hevent => hinv.step hevent.1 hevent.2)
    (owned_init n outcomes) h).handles

/-- The peer sends a segment to the first socket. -/
def fromPeer (flags : TcpFlags) (seqNum ackNum : UInt32) (window : UInt16) : TableEvent :=
  .segment { Segment.ofData flags seqNum ackNum window [] noData_lt with
    srcAddr := .ipv4 1, destAddr := .ipv4 2, srcPort := 80, destPort := 49152 } true

/-- A socket is opened when nothing random matters. -/
def openStream : TableEvent := .open .stream ⟨0, 0, fun _ => 0⟩

/-- A connection to a peer whose window is `window` ends in the TIME-WAIT state. -/
def finishing (window : UInt16) : List TableEvent :=
  [openStream, .call 0 (.connect (.ipv4 1) 80 ⟨.ok (0, .ipv4 2), true, 100⟩) trivial,
    fromPeer { syn := true, ack := true } 500 101 1000, fromPeer { ack := true } 501 101 window,
    .call 0 (.shutdown .both) trivial, fromPeer { ack := true } 501 102 window,
    fromPeer { fin := true, ack := true } 501 102 window]

/-- The timer handler finds the persist timer elapsed. -/
def probe : TableEvent := .tick fun _ => { persist := true }

/-- The only entry is closed by its user and opened again. -/
theorem handlesOwned_reopened :
    (run step (init 1 fun _ _ => {}) (finishing 1000 ++ [.close 0, openStream])).HandlesOwned :=
  handlesOwned_of_undisturbed 1 _ _
    ⟨⟨trivial, (by decide : TakesUnowned _ _)⟩, ⟨trivial, (by decide : SendsOwnedFin _ _ _)⟩,
      ⟨trivial, trivial⟩, ⟨trivial, trivial⟩, ⟨trivial, (by decide : SendsOwnedFin _ _ _)⟩,
      ⟨trivial, trivial⟩, ⟨trivial, trivial⟩, ⟨.inl rfl, trivial⟩,
      ⟨trivial, (by decide : TakesUnowned _ _)⟩, trivial⟩

/-- The handle of a connection in the TIME-WAIT state is returned again while its user holds it. And a
connection that its user has closed is given up by the persist timer: nobody holds the entry, and it
stays in use. -/
theorem not_handlesOwned :
    (¬ ∀ (n : ℕ) (outcomes : ℕ → ℕ → SendOutcome) (events : List TableEvent),
      Along ClosesHeld step (init n outcomes) events →
        (run step (init n outcomes) events).HandlesOwned) ∧
    (run step (init 1 fun _ _ => {}) (finishing 1000 ++ [openStream])).log
      = [.acquire 0, .acquire 0] ∧
    (run step (init 1 fun _ _ => {}) (finishing 0 ++ .close 0 :: List.replicate 6 probe)).log
      = [.acquire 0, .release 0] ∧
    (run step (init 1 fun _ _ => {}) (finishing 0 ++ .close 0 :: List.replicate 6 probe)).slots.map
        (fun slot => (slot.socket.type, slot.socket.state)) = [(.stream, .closed)] := by
  have hlog : (run step (init 1 fun _ _ => {}) (finishing 1000 ++ [openStream])).log
      = [.acquire 0, .acquire 0] := by decide
  refine ⟨fun h => ?_, hlog, by decide, by decide⟩
  have hreturned := (h 1 (fun _ _ => {}) (finishing 1000 ++ [openStream])
    ⟨trivial, trivial, trivial, trivial, trivial, trivial, trivial, trivial, trivial⟩).returned
  rw [hlog] at hreturned
  exact hreturned.2.1 (.inl rfl)

end Table

end Tcp
