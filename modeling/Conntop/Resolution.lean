import Conntop.Lib.GuardedRun
import Conntop.ListWindow

/-!
# The progress of resolution

The resolver is asked once for each address and each port that the list is told to add. It answers
by its callbacks, in any order, and answers no request twice: `Resolving` has the answers that have
arrived, and a callback is enabled while its request is pending.

Everything else that the list does keeps what the progress is made of (`counts`), so the invariant
`Progress` has to be looked at for three kinds of calls.

Main result: `run_progress`.
-/

namespace Conntop

namespace ConnectionList

variable {l l' : ConnectionList} {S : StdSort} {inet : InetText}

/-! ## What the user interface shows -/

def isEverythingResolved (l : ConnectionList) : Bool := l.dataResolvedCount == l.dataTotalCount

def getResolvedPercentage (l : ConnectionList) : ℤ :=
  if 0 < l.dataTotalCount then (l.dataResolvedCount * 1000 / l.dataTotalCount : ℕ) else -1

/-! ## What most calls keep -/

/-- The tables of addresses and ports, the counters and the requests. -/
def counts (l : ConnectionList) : List Address × List Port × ℕ × ℕ × List ResolverRequest :=
  (l.storage.addressMap.keys, l.storage.portMap.keys, l.dataTotalCount, l.dataResolvedCount,
    l.resolverRequests)

theorem Redraws.counts (h : Redraws l l') : l'.counts = l.counts := by
  rw [← h]
  rfl

theorem clampCursor_counts (l : ConnectionList) : l.clampCursor.counts = l.counts := by
  unfold clampCursor
  split_ifs
  · exact (invalidateCursor_redraws { l with cursorPos := l.getCursorMaxPos }).counts
  · rfl

theorem setCursorPos_counts (l : ConnectionList) (pos : ℕ) :
    (l.setCursorPos pos).counts = l.counts :=
  (invalidateCursor_redraws { l.invalidateCursor with cursorPos := pos }).counts.trans
    (invalidateCursor_redraws l).counts

theorem doScroll_counts (l : ConnectionList) (amount : ℤ) :
    (l.doScroll amount).counts = l.counts := by
  unfold doScroll
  simp only
  split_ifs
  · rfl
  · rfl
  · exact (fill_redraws _).counts
  · rfl

theorem moveCursor_counts (l : ConnectionList) (amount : ℤ) :
    (l.moveCursor amount).counts = l.counts := by
  unfold moveCursor
  simp only
  split_ifs
  · exact doScroll_counts { l with cursorPos := 0 } _
  · exact setCursorPos_counts l _
  · rfl
  · exact doScroll_counts { l with cursorPos := l.getCursorMaxPos } _
  · exact setCursorPos_counts l _
  · rfl
  · rfl

theorem setTargetSize_counts (l : ConnectionList) (size : ℕ) :
    (l.setTargetSize size).counts = l.counts := by
  have hresize : { l with targetSize := size }.resize.counts = l.counts := by
    unfold resize
    split_ifs
    · rfl
    · exact (fill_redraws { l with targetSize := size }).counts
    · rfl
  unfold setTargetSize
  split_ifs
  · rfl
  · exact (clampCursor_counts _).trans hresize

theorem setSortMode_counts (l : ConnectionList) (mode : EConnectionSortMode)
    (isAscending : Bool) : (l.setSortMode mode isAscending).counts = l.counts := by
  unfold setSortMode
  split_ifs
  · rfl
  · exact (fill_redraws _).counts

theorem getNextUpdate_counts (l : ConnectionList) : l.getNextUpdate.1.counts = l.counts := by
  have h := (getNextUpdate_relist l).eq
  rw [← h]
  rfl

theorem addConnection_counts (l : ConnectionList) (c : Connection) (d : ConnectionData) :
    { l with storage := (l.storage.addConnection c d).1 }.counts = l.counts := by
  unfold ConnectionStorage.addConnection
  split_ifs <;> rfl

theorem add_counts (l : ConnectionList) (c : Connection) (d : ConnectionData) :
    (l.add c d).counts = l.counts := by
  rw [add_eq]
  split_ifs
  · rfl
  · exact (handleNewConnection_redraws _ c).counts.trans (addConnection_counts l c d)

theorem remove_counts (l : ConnectionList) (c : Connection) : (l.remove c).counts = l.counts := by
  rw [remove_eq]
  split_ifs with hc
  · have herase : (({ l with storage := (l.storage.removeConnection c).1 }.removeDetail
        c).eraseItem c).counts = l.counts := by
      have hstorage : { l with storage := (l.storage.removeConnection c).1 }.counts = l.counts := by
        unfold ConnectionStorage.removeConnection
        split_ifs <;> rfl
      unfold removeDetail
      split_ifs <;> exact hstorage
    exact (clampCursor_counts _).trans ((fill_redraws _).counts.trans herase)
  · rfl

theorem change_counts (l : ConnectionList) (c : Connection) (d : ConnectionData) (flags : Flags) :
    (l.change S c d flags).counts = l.counts := by
  have h := (update_redraws (l := { l with storage := l.storage.setConnectionData c d }) S c
    flags).counts
  have hdetail := (setDetailFlags_relist { l with storage := l.storage.setConnectionData c d } c
    flags).eq
  rw [← hdetail] at h
  exact h

theorem dataUpdated_counts (l : ConnectionList) (mayAffectOrder : Bool)
    (touches : Connection → Bool) (flags : Connection → Flags) :
    ((l.markDetail flags).dataUpdated S mayAffectOrder touches flags).counts = l.counts := by
  obtain ⟨f, hf⟩ := markDetail_eq l flags
  rw [hf]
  exact (dataUpdated_redraws S mayAffectOrder touches flags).counts

/-! ## Requests and answers -/

/-- What a call adds to the tables, unless it is there. -/
def Op.added : Op → Option ResolverRequest
  | .getAddress a true => some (.address a)
  | .getPort p true => some (.port p)
  | _ => none

/-- The request that a callback answers. -/
def Op.answered : Op → Option ResolverRequest
  | .resolveAddress a _ => some (.address a)
  | .resolvePort p _ => some (.port p)
  | _ => none

/-- The addresses and ports in the storage. -/
def known (l : ConnectionList) : List ResolverRequest :=
  l.storage.addressMap.keys.map .address ++ l.storage.portMap.keys.map .port

/-- A list, and what the resolver has answered. -/
structure Resolving where
  list : ConnectionList := {}
  answered : List ResolverRequest := []

/-- The resolver answers what it was asked for, once. -/
def Resolving.step (S : StdSort) (inet : InetText) (r : Resolving) (op : Op) : Option Resolving :=
  match op.answered with
  | some q =>
    if q ∈ r.list.resolverRequests ∧ q ∉ r.answered then
      some { list := r.list.step S inet op, answered := r.answered ++ [q] }
    else none
  | none => some { r with list := r.list.step S inet op }

/-- What a call does to the progress. -/
inductive Counted (l : ConnectionList) (op : Op) (l' : ConnectionList) : Prop
  | same (hanswered : op.answered = none) (hadded : ∀ q, op.added = some q → q ∈ l.known)
      (hcounts : l'.counts = l.counts)
  | adds (q : ResolverRequest) (hanswered : op.answered = none) (hadded : op.added = some q)
      (hq : q ∉ l.known) (hknown : l'.known.Perm (q :: l.known))
      (htotal : l'.dataTotalCount = l.dataTotalCount + 1)
      (hresolved : l'.dataResolvedCount = l.dataResolvedCount)
      (hrequests : l'.resolverRequests = l.resolverRequests ++ [q])
  | answers (q : ResolverRequest) (hanswered : op.answered = some q) (hadded : op.added = none)
      (hknown : l'.known = l.known) (htotal : l'.dataTotalCount = l.dataTotalCount)
      (hresolved : l'.dataResolvedCount = l.dataResolvedCount + 1)
      (hrequests : l'.resolverRequests = l.resolverRequests)

theorem known_of_counts (h : l'.counts = l.counts) : l'.known = l.known := by
  have haddresses : l'.storage.addressMap.keys = l.storage.addressMap.keys := congrArg Prod.fst h
  have hports : l'.storage.portMap.keys = l.storage.portMap.keys := congrArg (·.2.1) h
  unfold known
  rw [haddresses, hports]

theorem mem_known_address {a : Address} :
    .address a ∈ l.known ↔ a ∈ l.storage.addressMap := by
  simp [known, AList.mem_keys]

theorem mem_known_port {p : Port} : .port p ∈ l.known ↔ p ∈ l.storage.portMap := by
  simp [known, AList.mem_keys]

theorem getAddress_counted (l : ConnectionList) (a : Address) (add : Bool) :
    Counted l (.getAddress a add) (l.getAddress inet a add).1 := by
  unfold getAddress ConnectionStorage.addAddress
  cases add with
  | false => exact .same rfl (fun q h => by cases h) rfl
  | true =>
    by_cases ha : a ∈ l.storage.addressMap
    · simp only [if_pos ha, if_true, Bool.false_eq_true, if_false]
      refine .same rfl (fun q h => ?_) rfl
      cases h
      exact mem_known_address.mpr ha
    · simp only [if_neg ha, if_true]
      refine .adds (.address a) rfl rfl (mt mem_known_address.mp ha) ?_ rfl rfl rfl
      unfold known
      rw [AList.keys_insert, List.erase_of_not_mem (mt AList.mem_keys.mpr ha)]
      exact .refl _

theorem getPort_counted (l : ConnectionList) (p : Port) (add : Bool) :
    Counted l (.getPort p add) (l.getPort p add).1 := by
  unfold getPort ConnectionStorage.addPort
  cases add with
  | false => exact .same rfl (fun q h => by cases h) rfl
  | true =>
    by_cases hp : p ∈ l.storage.portMap
    · simp only [if_pos hp, if_true, Bool.false_eq_true, if_false]
      refine .same rfl (fun q h => ?_) rfl
      cases h
      exact mem_known_port.mpr hp
    · simp only [if_neg hp, if_true]
      refine .adds (.port p) rfl rfl (mt mem_known_port.mp hp) ?_ rfl rfl rfl
      unfold known
      rw [AList.keys_insert, List.erase_of_not_mem (mt AList.mem_keys.mpr hp)]
      exact List.perm_middle

theorem resolverCallbackAddress_counted (l : ConnectionList) (a : Address)
    (resolved : ResolvedAddress) :
    Counted l (.resolveAddress a resolved) (l.resolverCallbackAddress S a resolved) := by
  have hcounts := dataUpdated_counts (S := S) { l with
    storage := l.setResolvedAddress a resolved
    dataResolvedCount := l.dataResolvedCount + 1 } (addressMayAffectOrder l.sortMode) (·.hasAddr a)
    (addressFlags a)
  have hknown := known_of_counts hcounts
  have hkeys : (l.setResolvedAddress a resolved).addressMap.keys = l.storage.addressMap.keys :=
    AList.keys_replace _ _ _
  refine .answers (.address a) rfl rfl (hknown.trans ?_) (congrArg (·.2.2.1) hcounts)
    (congrArg (·.2.2.2.1) hcounts) (congrArg (·.2.2.2.2) hcounts)
  unfold known
  dsimp only
  rw [hkeys]
  rfl

theorem resolverCallbackPort_counted (l : ConnectionList) (p : Port) (resolved : ResolvedPort) :
    Counted l (.resolvePort p resolved) (l.resolverCallbackPort S p resolved) := by
  have hcounts := dataUpdated_counts (S := S) { l with
    storage := l.setResolvedPort p resolved
    dataResolvedCount := l.dataResolvedCount + 1 } (portMayAffectOrder l.sortMode)
    (fun c => c.hasPorts && c.hasPort p) (portFlags p)
  have hknown := known_of_counts hcounts
  have hkeys : (l.setResolvedPort p resolved).portMap.keys = l.storage.portMap.keys :=
    AList.keys_replace _ _ _
  refine .answers (.port p) rfl rfl (hknown.trans ?_) (congrArg (·.2.2.1) hcounts)
    (congrArg (·.2.2.2.1) hcounts) (congrArg (·.2.2.2.2) hcounts)
  unfold known
  dsimp only
  rw [hkeys]
  rfl

/-- **What a call does to the progress.** -/
theorem step_counted (S : StdSort) (inet : InetText) (l : ConnectionList) (op : Op) :
    Counted l op (step S inet l op) := by
  have hsame : ∀ l' : ConnectionList, l'.counts = l.counts → op.answered = none →
      op.added = none → Counted l op l' := by
    intro l' hcounts hanswered hadded
    refine .same hanswered (fun q h => ?_) hcounts
    rw [hadded] at h
    cases h
  cases op with
  | getAddress a add => exact getAddress_counted l a add
  | getPort p add => exact getPort_counted l p add
  | resolveAddress a resolved => exact resolverCallbackAddress_counted l a resolved
  | resolvePort p resolved => exact resolverCallbackPort_counted l p resolved
  | add c d =>
    refine hsame _ ?_ rfl rfl
    show (if l.storage.HasEnds c then l.add c d else l).counts = _
    split_ifs
    · exact add_counts l c d
    · rfl
  | change c d flags =>
    refine hsame _ ?_ rfl rfl
    show (if c ∈ l.storage.connectionMap then l.change S c d flags else l).counts = _
    split_ifs
    · exact change_counts l c d flags
    · rfl
  | remove c => exact hsame _ (remove_counts l c) rfl rfl
  | clear => exact hsame _ rfl rfl rfl
  | addressDataUpdated a => exact hsame _ (dataUpdated_counts l _ _ _) rfl rfl
  | portDataUpdated p => exact hsame _ (dataUpdated_counts l _ _ _) rfl rfl
  | getNextUpdate => exact hsame _ (getNextUpdate_counts l) rfl rfl
  | invalidateAllVisible => exact hsame _ rfl rfl rfl
  | invalidateCursor => exact hsame _ (invalidateCursor_redraws l).counts rfl rfl
  | moveCursor amount => exact hsame _ (moveCursor_counts l amount) rfl rfl
  | doScroll amount => exact hsame _ (doScroll_counts l amount) rfl rfl
  | initConnectionDetail => exact hsame _ rfl rfl rfl
  | resetConnectionDetailRefresh => exact hsame _ rfl rfl rfl
  | setTargetSize size => exact hsame _ (setTargetSize_counts l size) rfl rfl
  | setSortMode mode isAscending => exact hsame _ (setSortMode_counts l mode isAscending) rfl rfl
  | rehash m =>
    refine hsame _ ?_ rfl rfl
    show (l.rehash m).counts = _
    unfold rehash
    split_ifs <;> rfl

/-! ## The invariant -/

theorem nodup_known (l : ConnectionList) : l.known.Nodup := by
  have haddresses : (l.storage.addressMap.keys.map ResolverRequest.address).Nodup :=
    l.storage.addressMap.nodupKeys.map fun a b h => ResolverRequest.address.inj h
  have hports : (l.storage.portMap.keys.map ResolverRequest.port).Nodup :=
    l.storage.portMap.nodupKeys.map fun p q h => ResolverRequest.port.inj h
  refine List.nodup_append.mpr ⟨haddresses, hports, ?_⟩
  intro q hq q' hq' he
  obtain ⟨a, -, rfl⟩ := List.mem_map.mp hq
  obtain ⟨p, -, rfl⟩ := List.mem_map.mp hq'
  cases he

/-- A request was issued for everything in the storage, and both counters are right. -/
structure Progress (r : Resolving) : Prop where
  requests : r.list.resolverRequests.Perm r.list.known
  total : r.list.dataTotalCount = r.list.known.length
  resolved : r.list.dataResolvedCount = r.answered.length
  nodup : r.answered.Nodup
  subset : r.answered ⊆ r.list.known

theorem Progress.init : Progress {} where
  requests := .refl _
  total := rfl
  resolved := rfl
  nodup := .nil
  subset := List.nil_subset _

/-- A step, with what it adds to the storage and to the answers. -/
theorem Progress.step {r r' : Resolving} {op : Op} (hr : Progress r)
    (h : r.step S inet op = some r') :
    Progress r' ∧ r'.answered = r.answered ++ op.answered.toList ∧
      ∀ q, q ∈ r'.list.known ↔ q ∈ r.list.known ∨ op.added = some q := by
  unfold Resolving.step at h
  cases step_counted S inet r.list op with
  -- the call asks nothing, and answers nothing
  | same hanswered hadded hcounts =>
    rw [hanswered] at h ⊢
    cases h
    have hknown := known_of_counts hcounts
    refine ⟨⟨?_, ?_, ?_, hr.nodup, ?_⟩, (List.append_nil _).symm, fun q => ?_⟩
    · have hrequests : (ConnectionList.step S inet r.list op).resolverRequests = _ :=
        congrArg (·.2.2.2.2) hcounts
      dsimp only
      rw [hknown, hrequests]
      exact hr.requests
    · exact (congrArg (·.2.2.1) hcounts).trans (hr.total.trans (congrArg List.length hknown.symm))
    · exact (congrArg (·.2.2.2.1) hcounts).trans hr.resolved
    · exact hknown ▸ hr.subset
    · dsimp only
      rw [hknown]
      exact ⟨.inl, fun h => h.elim id (hadded q)⟩
  -- one address or port becomes known, and is asked for
  | adds p hanswered hadded hp hknown htotal hresolved hrequests =>
    rw [hanswered] at h ⊢
    cases h
    refine ⟨⟨?_, ?_, hresolved.trans hr.resolved, hr.nodup, ?_⟩, (List.append_nil _).symm,
      fun q => ?_⟩
    · have happend : (r.list.resolverRequests ++ [p]).Perm (p :: r.list.known) :=
        (List.perm_append_singleton p _).trans (hr.requests.cons p)
      exact (hrequests ▸ happend).trans hknown.symm
    · exact (htotal.trans (congrArg (· + 1) hr.total)).trans hknown.length_eq.symm
    · exact fun q hq => hknown.mem_iff.mpr (List.mem_cons_of_mem p (hr.subset hq))
    · rw [hadded, Option.some_inj, hknown.mem_iff, List.mem_cons, or_comm, eq_comm]
  -- one request is answered, which was asked before
  | answers p hanswered hadded hknown htotal hresolved hrequests =>
    rw [hanswered] at h ⊢
    dsimp only at h
    split_ifs at h with hp
    cases h
    refine ⟨⟨?_, ?_, ?_, ?_, ?_⟩, rfl, fun q => ?_⟩
    · dsimp only
      rw [hknown, hrequests]
      exact hr.requests
    · dsimp only
      rw [hknown, htotal]
      exact hr.total
    · dsimp only
      rw [hresolved, hr.resolved, List.length_append]
      rfl
    · exact List.nodup_append.mpr ⟨hr.nodup, List.nodup_singleton p, fun q hq q' hq' he =>
        hp.2 (List.mem_singleton.mp hq' ▸ he ▸ hq)⟩
    · dsimp only
      rw [hknown]
      exact List.append_subset.mpr ⟨hr.subset,
        List.cons_subset.mpr ⟨hr.requests.mem_iff.mp hp.1, List.nil_subset _⟩⟩
    · dsimp only
      rw [hknown, hadded]
      exact ⟨.inl, fun h => h.elim id fun h => by cases h⟩

theorem Progress.run {r r' : Resolving} {ops : List Op} (hr : Progress r)
    (h : GuardedRun.run (Resolving.step S inet) r ops = some r') :
    Progress r' ∧ r'.answered = r.answered ++ ops.filterMap Op.answered ∧
      ∀ q, q ∈ r'.list.known ↔ q ∈ r.list.known ∨ q ∈ ops.filterMap Op.added := by
  induction ops generalizing r with
  | nil =>
    cases h
    exact ⟨hr, (List.append_nil _).symm, fun q => ⟨.inl, fun h => h.elim id fun h => by cases h⟩⟩
  | cons op ops ih =>
    obtain ⟨t, ht, h⟩ := GuardedRun.run_cons_eq_some.mp h
    obtain ⟨ht, hanswered, hknown⟩ := hr.step ht
    obtain ⟨hr', hanswered', hknown'⟩ := ih ht h
    refine ⟨hr', ?_, fun q => ?_⟩
    · rw [hanswered', hanswered, List.append_assoc]
      cases hop : op.answered <;> simp [hop]
    · rw [hknown', hknown, or_assoc]
      cases hop : op.added <;> simp [hop, eq_comm]

/-! ## The counters -/

theorem Progress.requests_count {r : Resolving} (hr : Progress r) (q : ResolverRequest) :
    r.list.resolverRequests.count q = if q ∈ r.list.known then 1 else 0 := by
  rw [hr.requests.count_eq, (nodup_known r.list).count]

/-- The answers of everything in the storage that has one are all the answers. -/
theorem Progress.resolved_filter {r : Resolving} (hr : Progress r) :
    r.list.dataResolvedCount = (r.list.known.filter (· ∈ r.answered)).length := by
  have hperm : (r.list.known.filter (· ∈ r.answered)).Perm r.answered := by
    refine (List.perm_ext_iff_of_nodup ((nodup_known _).filter _) hr.nodup).mpr fun q => ?_
    rw [List.mem_filter, decide_eq_true_eq]
    exact ⟨And.right, fun hq => ⟨hr.subset hq, hq⟩⟩
  rw [hr.resolved, hperm.length_eq]

theorem Progress.le_total {r : Resolving} (hr : Progress r) :
    r.list.dataResolvedCount ≤ r.list.dataTotalCount := by
  rw [hr.resolved_filter, hr.total]
  exact List.length_filter_le _ _

theorem Progress.isEverythingResolved_iff {r : Resolving} (hr : Progress r) :
    r.list.isEverythingResolved = true ↔ ∀ q ∈ r.list.known, q ∈ r.answered := by
  rw [isEverythingResolved, beq_iff_eq, hr.resolved_filter, hr.total,
    List.length_filter_eq_length_iff]
  simp only [decide_eq_true_eq]

theorem getResolvedPercentage_eq_neg_one_iff (l : ConnectionList) :
    l.getResolvedPercentage = -1 ↔ l.dataTotalCount = 0 := by
  unfold getResolvedPercentage
  split_ifs with h
  · exact iff_of_false not_false h.ne'
  · exact iff_of_true rfl (Nat.eq_zero_of_not_pos h)

theorem getResolvedPercentage_mem (l : ConnectionList) (h : 0 < l.dataTotalCount)
    (hle : l.dataResolvedCount ≤ l.dataTotalCount) :
    0 ≤ l.getResolvedPercentage ∧ l.getResolvedPercentage ≤ 1000 := by
  rw [getResolvedPercentage, if_pos h]
  have hdiv : l.dataResolvedCount * 1000 / l.dataTotalCount ≤ 1000 :=
    Nat.div_le_of_le_mul (Nat.mul_le_mul_right 1000 hle)
  exact ⟨Int.natCast_nonneg _, Int.ofNat_le.mpr hdiv⟩

/-- **The progress is exact** in every run in which the resolver answers no request twice. -/
theorem run_progress {ops : List Op} {r : Resolving}
    (h : GuardedRun.run (Resolving.step S inet) {} ops = some r) :
    (∀ q, r.list.resolverRequests.count q = if q ∈ ops.filterMap Op.added then 1 else 0) ∧
    r.list.dataTotalCount =
      r.list.storage.addressMap.keys.length + r.list.storage.portMap.keys.length ∧
    r.list.dataResolvedCount =
      (r.list.known.filter (· ∈ ops.filterMap Op.answered)).length ∧
    r.list.dataResolvedCount ≤ r.list.dataTotalCount ∧
    (r.list.getResolvedPercentage = -1 ↔ ops.filterMap Op.added = []) ∧
    (ops.filterMap Op.added ≠ [] →
      0 ≤ r.list.getResolvedPercentage ∧ r.list.getResolvedPercentage ≤ 1000) ∧
    (r.list.isEverythingResolved = true ↔
      ∀ q ∈ r.list.resolverRequests, q ∈ ops.filterMap Op.answered) := by
  obtain ⟨hr, hanswered, hknown⟩ := Progress.init.run h
  have hanswered : r.answered = ops.filterMap Op.answered := hanswered
  have hknown : ∀ q, q ∈ r.list.known ↔ q ∈ ops.filterMap Op.added := by
    intro q
    rw [hknown q]
    exact ⟨fun h => h.elim (fun h => by cases h) id, .inr⟩
  have hempty : r.list.dataTotalCount = 0 ↔ ops.filterMap Op.added = [] := by
    rw [hr.total, List.length_eq_zero_iff, List.eq_nil_iff_forall_not_mem,
      List.eq_nil_iff_forall_not_mem]
    exact forall_congr' fun q => not_congr (hknown q)
  refine ⟨fun q => ?_, ?_, hanswered ▸ hr.resolved_filter, hr.le_total,
    (getResolvedPercentage_eq_neg_one_iff _).trans hempty, fun hne => ?_, ?_⟩
  · rw [hr.requests_count q]
    exact if_congr (hknown q) rfl rfl
  · rw [hr.total, known, List.length_append, List.length_map, List.length_map]
  · exact getResolvedPercentage_mem _ (Nat.pos_of_ne_zero (mt hempty.mp hne)) hr.le_total
  · rw [hr.isEverythingResolved_iff, hanswered]
    exact forall_congr' fun q => imp_congr_left hr.requests.mem_iff.symm

private def knownAddr : Address := .ip4 0x0A00007F#32
private def knownPort : Port := ⟨.udp, 53⟩

/-- The port is added twice, and answered after its connections are gone. -/
def knownOps : List Op :=
  [.getPort knownPort true, .getAddress knownAddr false, .getAddress knownAddr true,
    .getPort knownPort true, .add ⟨knownAddr, knownPort, knownAddr, knownPort, rfl, rfl⟩ {}, .clear,
    .resolvePort knownPort { service := "domain" }]

theorem run_progress_knownOps :
    ∃ r, GuardedRun.run (Resolving.step .insertion .plain) {} knownOps = some r ∧
      r.list.dataTotalCount =
        r.list.storage.addressMap.keys.length + r.list.storage.portMap.keys.length ∧
      r.list.resolverRequests.count (.port knownPort) = 1 ∧
      r.list.getResolvedPercentage ≤ 1000 := by
  have hsome : (GuardedRun.run (Resolving.step .insertion .plain) {} knownOps).isSome = true := by
    decide
  obtain ⟨r, hr⟩ := Option.isSome_iff_exists.mp hsome
  obtain ⟨hcount, htotal, -, -, -, hpercent, -⟩ := run_progress hr
  exact ⟨r, hr, htotal, hcount (.port knownPort), (hpercent (by decide)).2⟩

end ConnectionList

end Conntop
