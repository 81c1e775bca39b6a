import Webserv.Server.ClientEvents

/-!
# `Selector`

Which descriptors are watched, and how the ready ones are reported.
-/

namespace Webserv

/-- `fd_set` -/
abbrev FdSet := Std.ExtTreeSet Int

abbrev FdVector := List Int

/-- A listening socket. -/
structure ServerSocket where
  port : Nat
  fd : Int

abbrev ServerSocketMap := Std.ExtTreeMap Int ServerSocket

/-- An entry that `operator[]` made for a missing key is `none`. -/
abbrev ClientSocketMap := Std.ExtTreeMap Int (Option ClientSocket)

/-- What `::select` returns. -/
inductive SelectResult
  | failed
  | timeout
  | ready (readfds writefds : FdSet)

namespace Selector

def FD_SETSIZE : Int := 1024

/-- A descriptor that an `fd_set` has room for. -/
def InRange (fd : Int) : Prop := 0 ≤ fd ∧ fd < FD_SETSIZE

instance (fd : Int) : Decidable (InRange fd) := inferInstanceAs (Decidable (_ ∧ _))

def FD_SET (fd : Int) (fds : FdSet) : Except Raised FdSet :=
  if InRange fd then .ok (fds.insert fd) else .error .undefined

def setServers : List (Int × ServerSocket) → FdSet → Except Raised FdSet
  | [], readfds => .ok readfds
  | (fd, _) :: rest, readfds => do
    let readfds ← FD_SET fd readfds
    setServers rest readfds

def setClients :
    List (Int × Option ClientSocket) → FdSet → FdSet → Except Raised (FdSet × FdSet)
  | [], readfds, writefds => .ok (readfds, writefds)
  | (_, none) :: _, _, _ => .error .undefined
  | (fd, some clnt) :: rest, readfds, writefds =>
    if clnt.isWaitingForRequest then do
      let readfds ← FD_SET fd readfds
      setClients rest readfds writefds
    else if clnt.canResponse then do
      let writefds ← FD_SET fd writefds
      setClients rest readfds writefds
    else .error (.std (.runtimeError "seFdset: unexpected clnt socket state"))

def setFdset (servSocks : ServerSocketMap) (clntSocks : ClientSocketMap) :
    Except Raised (FdSet × FdSet) := do
  let readfds ← setServers servSocks.toList ∅
  setClients clntSocks.toList readfds ∅

/-- `(m.empty()) ? -1 : m.rbegin()->first` -/
def lastFd {β : Type} (m : Std.ExtTreeMap Int β) : Int :=
  match m.toList.getLast? with
  | none => -1
  | some e => e.1

def calcMaxFd (servSocks : ServerSocketMap) (clntSocks : ClientSocketMap) : Int :=
  max (lastFd servSocks) (lastFd clntSocks)

def toFdVector (fdset : FdSet) (maxfd : Int) : FdVector :=
  ((List.range (maxfd + 1).toNat).map Int.ofNat).filter fun i => fdset.contains i

def select (result : SelectResult) (servSocks : ServerSocketMap) (clntSocks : ClientSocketMap) :
    Except Raised (FdVector × FdVector) := do
  let _ ← setFdset servSocks clntSocks
  let maxfd := calcMaxFd servSocks clntSocks
  match result with
  | .failed => throw (.std (.runtimeError "select() failed"))
  | .timeout => return ([], [])
  | .ready readfds writefds => return (toFdVector readfds maxfd, toFdVector writefds maxfd)

/-! ## The descriptors that are set -/

theorem setServers_ok {entries : List (Int × ServerSocket)} (h : ∀ e ∈ entries, InRange e.1)
    (readfds : FdSet) :
    ∃ fds, setServers entries readfds = .ok fds ∧
      ∀ fd, fd ∈ fds ↔ fd ∈ readfds ∨ ∃ sock, (fd, sock) ∈ entries := by
  induction entries generalizing readfds with
  | nil => exact ⟨readfds, rfl, fun fd => by simp⟩
  | cons e rest ih =>
    obtain ⟨k, sock⟩ := e
    rw [List.forall_mem_cons] at h
    obtain ⟨fds, hfds, hmem⟩ := ih h.2 (readfds.insert k)
    refine ⟨fds, ?_, ?_⟩
    · rw [setServers, FD_SET, if_pos h.1]
      exact hfds
    · intro fd
      rw [hmem, Std.ExtTreeSet.mem_insert, Std.LawfulEqCmp.compare_eq_iff_eq]
      simp only [List.mem_cons, Prod.mk.injEq, exists_or, exists_eq_right]
      tauto

/-- A client that can be watched. -/
def Watchable (e : Int × Option ClientSocket) : Prop :=
  InRange e.1 ∧ ∃ clnt, e.2 = some clnt ∧ (clnt.state = .read ∨ clnt.state = .write)

theorem exists_client_cons {entries : List (Int × Option ClientSocket)} {k fd : Int}
    {clnt : ClientSocket} {state : ClientState} :
    (∃ c, (fd, some c) ∈ (k, some clnt) :: entries ∧ c.state = state) ↔
      (k = fd ∧ clnt.state = state) ∨ ∃ c, (fd, some c) ∈ entries ∧ c.state = state := by
  constructor
  · rintro ⟨c, hmem, hstate⟩
    rcases List.mem_cons.mp hmem with heq | hmem
    · obtain ⟨rfl, hc⟩ := Prod.mk.inj heq
      exact Or.inl ⟨rfl, Option.some.inj hc ▸ hstate⟩
    · exact Or.inr ⟨c, hmem, hstate⟩
  · rintro (⟨rfl, hstate⟩ | ⟨c, hmem, hstate⟩)
    · exact ⟨clnt, List.mem_cons_self .., hstate⟩
    · exact ⟨c, List.mem_cons_of_mem _ hmem, hstate⟩

theorem setClients_ok {entries : List (Int × Option ClientSocket)}
    (h : ∀ e ∈ entries, Watchable e) (readfds writefds : FdSet) :
    ∃ fds, setClients entries readfds writefds = .ok fds ∧
      (∀ fd, fd ∈ fds.1 ↔
        fd ∈ readfds ∨ ∃ clnt, (fd, some clnt) ∈ entries ∧ clnt.state = .read) ∧
      ∀ fd, fd ∈ fds.2 ↔
        fd ∈ writefds ∨ ∃ clnt, (fd, some clnt) ∈ entries ∧ clnt.state = .write := by
  induction entries generalizing readfds writefds with
  | nil => exact ⟨(readfds, writefds), rfl, fun fd => by simp, fun fd => by simp⟩
  | cons e rest ih =>
    obtain ⟨k, e⟩ := e
    rw [List.forall_mem_cons] at h
    obtain ⟨⟨hrange, clnt, rfl, hstate⟩, hrest⟩ := h
    simp only [exists_client_cons]
    rcases hstate with hstate | hstate
    · obtain ⟨fds, hfds, hread, hwrite⟩ := ih hrest (readfds.insert k) writefds
      refine ⟨fds, ?_, ?_, ?_⟩
      · rw [setClients, if_pos (by simp [ClientSocket.isWaitingForRequest, hstate]), FD_SET,
          if_pos hrange]
        exact hfds
      · intro fd
        rw [hread, Std.ExtTreeSet.mem_insert, Std.LawfulEqCmp.compare_eq_iff_eq]
        simp only [hstate, and_true]
        tauto
      · intro fd
        rw [hwrite, hstate]
        simp
    · obtain ⟨fds, hfds, hread, hwrite⟩ := ih hrest readfds (writefds.insert k)
      refine ⟨fds, ?_, ?_, ?_⟩
      · rw [setClients, if_neg (by simp [ClientSocket.isWaitingForRequest, hstate]),
          if_pos (by simp [ClientSocket.canResponse, hstate]), FD_SET, if_pos hrange]
        exact hfds
      · intro fd
        rw [hread, hstate]
        simp
      · intro fd
        rw [hwrite, Std.ExtTreeSet.mem_insert, Std.LawfulEqCmp.compare_eq_iff_eq]
        simp only [hstate, and_true]
        tauto

/-- Every socket can be watched, so the listening sockets and the clients in `READ` are watched
for reading and the clients in `WRITE` for writing. -/
theorem setFdset_ok {servSocks : ServerSocketMap} {clntSocks : ClientSocketMap}
    (hserv : ∀ fd ∈ servSocks, InRange fd)
    (hclnt : ∀ fd e, clntSocks[fd]? = some e → Watchable (fd, e)) :
    ∃ fds, setFdset servSocks clntSocks = .ok fds ∧
      (∀ fd, fd ∈ fds.1 ↔
        fd ∈ servSocks ∨ ∃ clnt, clntSocks[fd]? = some (some clnt) ∧ clnt.state = .read) ∧
      ∀ fd, fd ∈ fds.2 ↔ ∃ clnt, clntSocks[fd]? = some (some clnt) ∧ clnt.state = .write := by
  have hservers : ∀ e ∈ servSocks.toList, InRange e.1 := by
    intro e he
    refine hserv e.1 (Std.ExtTreeMap.mem_iff_isSome_getElem?.mpr ?_)
    rw [Std.ExtTreeMap.mem_toList_iff_getElem?_eq_some.mp he]
    rfl
  have hclients : ∀ e ∈ clntSocks.toList, Watchable e := fun e he =>
    hclnt e.1 e.2 (Std.ExtTreeMap.mem_toList_iff_getElem?_eq_some.mp he)
  obtain ⟨readfds, hreadfds, hserver⟩ := setServers_ok hservers ∅
  obtain ⟨fds, hfds, hread, hwrite⟩ := setClients_ok hclients readfds ∅
  refine ⟨fds, ?_, ?_, ?_⟩
  · rw [setFdset, hreadfds]
    exact hfds
  · intro fd
    rw [hread, hserver, Std.ExtTreeMap.mem_iff_isSome_getElem?, Option.isSome_iff_exists]
    simp only [Std.ExtTreeSet.not_mem_empty, false_or,
      Std.ExtTreeMap.mem_toList_iff_getElem?_eq_some]
  · intro fd
    rw [hwrite]
    simp only [Std.ExtTreeSet.not_mem_empty, false_or,
      Std.ExtTreeMap.mem_toList_iff_getElem?_eq_some]

/-! ## The descriptors that are reported -/

theorem le_lastFd {β : Type} {m : Std.ExtTreeMap Int β} {k : Int} (h : k ∈ m) :
    k ≤ lastFd m := by
  obtain ⟨v, hv⟩ := Option.isSome_iff_exists.mp (Std.ExtTreeMap.mem_iff_isSome_getElem?.mp h)
  have hmem : (k, v) ∈ m.toList := Std.ExtTreeMap.mem_toList_iff_getElem?_eq_some.mpr hv
  have hordered := Std.ExtTreeMap.ordered_keys_toList (t := m)
  unfold lastFd
  rcases List.eq_nil_or_concat m.toList with hnil | ⟨init, last, hlast⟩
  · rw [hnil] at hmem
    cases hmem
  · rw [hlast, List.concat_eq_append] at hmem hordered
    rw [hlast, List.concat_eq_append, List.getLast?_concat]
    rcases List.mem_append.mp hmem with hinit | heq
    · have hlt := (List.pairwise_append.mp hordered).2.2 _ hinit last (List.mem_singleton_self _)
      exact (compare_lt_iff_lt.mp hlt).le
    · rw [← List.mem_singleton.mp heq]

theorem le_calcMaxFd {servSocks : ServerSocketMap} {clntSocks : ClientSocketMap} {fd : Int}
    (h : fd ∈ servSocks ∨ fd ∈ clntSocks) : fd ≤ calcMaxFd servSocks clntSocks := by
  rcases h with h | h
  · exact (le_lastFd h).trans (le_max_left _ _)
  · exact (le_lastFd h).trans (le_max_right _ _)

theorem mem_toFdVector {fdset : FdSet} {maxfd fd : Int} :
    fd ∈ toFdVector fdset maxfd ↔ 0 ≤ fd ∧ fd ≤ maxfd ∧ fd ∈ fdset := by
  rw [toFdVector, List.mem_filter, Std.ExtTreeSet.contains_iff_mem, List.mem_map]
  constructor
  · rintro ⟨⟨i, hi, rfl⟩, hmem⟩
    have hlt := List.mem_range.mp hi
    exact ⟨Int.natCast_nonneg i, by simp only [Int.ofNat_eq_natCast]; omega, hmem⟩
  · rintro ⟨hpos, hle, hmem⟩
    exact ⟨⟨fd.toNat, List.mem_range.mpr (by omega), Int.toNat_of_nonneg hpos⟩, hmem⟩

theorem nodup_toFdVector (fdset : FdSet) (maxfd : Int) : (toFdVector fdset maxfd).Nodup :=
  (List.nodup_range.map fun _ _ h => Int.ofNat.inj h).filter _

end Selector

end Webserv
