import Conntop.ListWindow

/-!
# The detail dialog and its flags

`m_connectionDetail` is the connection that the detail dialog shows, and
`m_connectionDetailUpdateFlags` are the columns of it that changed since the dialog was painted.
`resetConnectionDetailRefresh` is what the dialog calls after it was painted.

* `reported`: the columns of the shown connection that a call reports.
* `track`: a run, with the union of what was reported since the dialog was painted, as long as it
  shows the same connection.
* `KeepsPending`: the condition under which a call loses nothing. `update` puts its flags in the
  place of those that are pending, so they must be among its flags.

Main result: `unread_iff`, along a run the flags of the dialog have everything that was reported
exactly when every call meets the condition.
-/

namespace Conntop

/-! ## Sets of flags -/

/-- All flags of `a` are in `b`. -/
def Flags.Within (a b : Flags) : Prop := a &&& b = a

instance (a b : Flags) : Decidable (a.Within b) := inferInstanceAs (Decidable (_ = _))

namespace Flags

variable {a b c : Flags}

theorem within_iff : a.Within b ↔ ∀ i (hi : i < 32), a[i] = true → b[i] = true := by
  unfold Within
  constructor
  · intro h i hi ha
    have hbit := congrArg (fun x : Flags => x[i]) h
    simp only [BitVec.getElem_and, ha, Bool.true_and] at hbit
    exact hbit
  · intro h
    refine BitVec.eq_of_getElem_eq fun i hi => ?_
    rw [BitVec.getElem_and]
    cases ha : a[i] with
    | false => rfl
    | true => rw [h i hi ha, Bool.and_self]

@[simp] theorem within_refl (a : Flags) : a.Within a := BitVec.and_self

@[simp] theorem zero_within (a : Flags) : Within 0 a := BitVec.zero_and

@[simp] theorem within_neg_one (a : Flags) : a.Within (-1) := by
  unfold Within
  rw [show (-1 : Flags) = BitVec.allOnes 32 from rfl, BitVec.and_allOnes]

theorem or_within_iff : (a ||| b).Within c ↔ a.Within c ∧ b.Within c := by
  simp only [within_iff, BitVec.getElem_or, Bool.or_eq_true]
  exact ⟨fun h => ⟨fun i hi ha => h i hi (Or.inl ha), fun i hi hb => h i hi (Or.inr hb)⟩,
    fun h i hi => Or.rec (h.1 i hi) (h.2 i hi)⟩

theorem within_or_right (a b : Flags) : b.Within (a ||| b) := (or_within_iff.mp (within_refl _)).2

theorem Within.or (h : a.Within b) (c : Flags) : (a ||| c).Within (b ||| c) := by
  refine or_within_iff.mpr ⟨?_, within_or_right b c⟩
  rw [within_iff] at h ⊢
  intro i hi ha
  rw [BitVec.getElem_or, h i hi ha, Bool.true_or]

theorem Within.antisymm (h : a.Within b) (h' : b.Within a) : a = b := by
  unfold Within at h h'
  rw [← h, BitVec.and_comm, h']

end Flags

namespace ConnectionList

variable {l l' l'' : ConnectionList} {S : StdSort} {c : Connection}

/-! ## What a call does with the dialog -/

/-- The dialog of `l'` shows what it shows in `l`, with the same flags. -/
def SameDetail (l l' : ConnectionList) : Prop :=
  l'.connectionDetail = l.connectionDetail ∧
    l'.connectionDetailUpdateFlags = l.connectionDetailUpdateFlags

theorem SameDetail.refl (l : ConnectionList) : SameDetail l l := ⟨rfl, rfl⟩

theorem SameDetail.trans (h : SameDetail l l') (h' : SameDetail l' l'') : SameDetail l l'' :=
  ⟨h'.1.trans h.1, h'.2.trans h.2⟩

theorem Redraws.sameDetail (h : Redraws l l') : SameDetail l l' :=
  ⟨h.connectionDetail, h.detailFlags⟩

theorem clampCursor_sameDetail (l : ConnectionList) : SameDetail l l.clampCursor := by
  unfold clampCursor
  split_ifs
  · exact (invalidateCursor_redraws { l with cursorPos := l.getCursorMaxPos }).sameDetail
  · exact .refl l

theorem setCursorPos_sameDetail (l : ConnectionList) (pos : ℕ) :
    SameDetail l (l.setCursorPos pos) :=
  (invalidateCursor_redraws l).sameDetail.trans
    (invalidateCursor_redraws { l.invalidateCursor with cursorPos := pos }).sameDetail

theorem doScroll_sameDetail (l : ConnectionList) (amount : ℤ) :
    SameDetail l (l.doScroll amount) := by
  unfold doScroll
  simp only
  split_ifs
  · exact ⟨rfl, rfl⟩
  · exact .refl l
  · exact (fill_redraws _).sameDetail
  · exact .refl l

theorem moveCursor_sameDetail (l : ConnectionList) (amount : ℤ) :
    SameDetail l (l.moveCursor amount) := by
  unfold moveCursor
  simp only
  split_ifs
  · exact doScroll_sameDetail { l with cursorPos := 0 } _
  · exact setCursorPos_sameDetail l _
  · exact .refl l
  · exact doScroll_sameDetail { l with cursorPos := l.getCursorMaxPos } _
  · exact setCursorPos_sameDetail l _
  · exact .refl l
  · exact .refl l

theorem setTargetSize_sameDetail (l : ConnectionList) (size : ℕ) :
    SameDetail l (l.setTargetSize size) := by
  have hresize : SameDetail l { l with targetSize := size }.resize := by
    unfold resize
    split_ifs
    · exact ⟨rfl, rfl⟩
    · exact (fill_redraws { l with targetSize := size }).sameDetail
    · exact ⟨rfl, rfl⟩
  unfold setTargetSize
  split_ifs
  · exact .refl l
  · exact hresize.trans (clampCursor_sameDetail _)

theorem setSortMode_sameDetail (l : ConnectionList) (mode : EConnectionSortMode)
    (isAscending : Bool) : SameDetail l (l.setSortMode mode isAscending) := by
  unfold setSortMode
  split_ifs
  · exact .refl l
  · exact (fill_redraws _).sameDetail

theorem getNextUpdate_sameDetail (l : ConnectionList) : SameDetail l l.getNextUpdate.1 := by
  unfold getNextUpdate
  split_ifs
  · simp only
    split
    · split <;> exact ⟨rfl, rfl⟩
    · exact ⟨rfl, rfl⟩
  · exact .refl l

theorem add_sameDetail (l : ConnectionList) (c : Connection) (d : ConnectionData) :
    SameDetail l (l.add c d) := by
  rw [add_eq]
  split_ifs
  · exact .refl l
  · exact (handleNewConnection_redraws _ c).sameDetail

theorem remove_sameDetail (l : ConnectionList) (c : Connection) :
    SameDetail (if c ∈ l.stored then l.removeDetail c else l) (l.remove c) := by
  rw [remove_eq]
  split_ifs
  · have herase : SameDetail (l.removeDetail c)
        (({ l with storage := (l.storage.removeConnection c).1 }.removeDetail c).eraseItem c) := by
      unfold removeDetail
      split_ifs <;> exact ⟨rfl, rfl⟩
    have hfill := herase.trans (fill_redraws _).sameDetail
    exact (hfill.trans (clampCursor_sameDetail _)).trans ⟨rfl, rfl⟩
  · exact .refl l

theorem remove_detail (l : ConnectionList) (c : Connection) :
    ((l.remove c).connectionDetail = none ∧ (l.remove c).connectionDetailUpdateFlags = -1) ∨
      SameDetail l (l.remove c) := by
  have h := remove_sameDetail l c
  by_cases hd : c ∈ l.stored ∧ l.connectionDetail = some c
  · rw [if_pos hd.1, removeDetail, if_pos hd.2] at h
    exact .inl h
  · have hl : (if c ∈ l.stored then l.removeDetail c else l) = l := by
      split_ifs with hc
      · rw [removeDetail, if_neg fun hd' => hd ⟨hc, hd'⟩]
      · rfl
    rw [hl] at h
    exact .inr h

theorem getAddress_sameDetail (inet : InetText) (l : ConnectionList) (a : Address) (add : Bool) :
    SameDetail l (l.getAddress inet a add).1 := by
  unfold getAddress
  simp only
  split_ifs <;> exact ⟨rfl, rfl⟩

theorem getPort_sameDetail (l : ConnectionList) (p : Port) (add : Bool) :
    SameDetail l (l.getPort p add).1 := by
  unfold getPort
  simp only
  split_ifs <;> exact ⟨rfl, rfl⟩

theorem step_add_sameDetail (S : StdSort) (inet : InetText) (l : ConnectionList) (c : Connection)
    (d : ConnectionData) : SameDetail l (step S inet l (.add c d)) := by
  show SameDetail l (if l.storage.HasEnds c then l.add c d else l)
  split_ifs
  · exact add_sameDetail l c d
  · exact .refl l

theorem rehash_sameDetail (l : ConnectionList) (m : AList fun _ : Connection => ConnectionData) :
    SameDetail l (l.rehash m) := by
  unfold rehash
  split_ifs <;> exact ⟨rfl, rfl⟩

theorem markDetail_connectionDetail (l : ConnectionList) (flags : Connection → Flags) :
    (l.markDetail flags).connectionDetail = l.connectionDetail := by
  obtain ⟨f, hf⟩ := markDetail_eq l flags
  rw [hf]

theorem markDetail_flags (hc : l.connectionDetail = some c) (flags : Connection → Flags) :
    (l.markDetail flags).connectionDetailUpdateFlags =
      l.connectionDetailUpdateFlags ||| flags c := by
  unfold markDetail
  rw [hc]

theorem setDetailFlags_flags (c : Connection) (flags : Flags) :
    (l.setDetailFlags c flags).connectionDetailUpdateFlags =
      if l.connectionDetail = some c then flags else l.connectionDetailUpdateFlags := by
  unfold setDetailFlags
  split_ifs <;> rfl

/-- The flags that a call reports for a connection, `initConnectionDetail` for the one it
selects. -/
def reported (l : ConnectionList) (c : Connection) : Op → Flags
  | .change c' _ flags => if c' ∈ l.storage.connectionMap ∧ c' = c then flags else 0
  | .resolveAddress a _ | .addressDataUpdated a => addressFlags a c
  | .resolvePort p _ | .portDataUpdated p => portFlags p c
  | .initConnectionDetail => -1
  | _ => 0

/-- Whether the call says that the dialog was painted. -/
def Op.isReset : Op → Bool
  | .resetConnectionDetailRefresh => true
  | _ => false

/-- The condition under which a call loses no flag: an update of the shown connection has those that
are pending among its own. -/
def KeepsPending (l : ConnectionList) : Op → Prop
  | .change c _ flags => c ∈ l.storage.connectionMap → l.connectionDetail = some c →
      l.connectionDetailUpdateFlags.Within flags
  | _ => True

instance (l : ConnectionList) : DecidablePred (KeepsPending l)
  | .change .. => inferInstanceAs (Decidable (_ ∈ _ → _ = _ → Flags.Within _ _))
  | .add .. | .remove _ | .setTargetSize _ | .getAddress .. | .getPort .. | .clear
  | .resolveAddress .. | .resolvePort .. | .addressDataUpdated _ | .portDataUpdated _
  | .getNextUpdate | .invalidateAllVisible | .invalidateCursor | .moveCursor _ | .doScroll _
  | .initConnectionDetail | .resetConnectionDetailRefresh | .setSortMode .. | .rehash _ =>
    inferInstanceAs (Decidable True)

/-- The call keeps what the dialog shows, and adds what it reports to the flags. -/
structure Reports (l : ConnectionList) (op : Op) (l' : ConnectionList) : Prop where
  keeps : KeepsPending l op
  not_reset : op.isReset = false
  connectionDetail : l'.connectionDetail = l.connectionDetail
  flags : ∀ c, l.connectionDetail = some c →
    l'.connectionDetailUpdateFlags = l.connectionDetailUpdateFlags ||| reported l c op

theorem SameDetail.reports {op : Op} (h : SameDetail l l') (hk : KeepsPending l op)
    (hr : op.isReset = false) (h0 : ∀ c, reported l c op = 0) :
    Reports l op l' :=
  ⟨hk, hr, h.1, fun c _ => by rw [h.2, h0, BitVec.ofNat_eq_ofNat, BitVec.or_zero]⟩

theorem reports_of_mark {op : Op} {flags : Connection → Flags} {mayAffectOrder : Bool}
    {touches : Connection → Bool} (l₀ : ConnectionList) (h : SameDetail l l₀)
    (hk : KeepsPending l op) (hr : op.isReset = false)
    (hf : ∀ c, reported l c op = flags c) :
    Reports l op ((l₀.markDetail flags).dataUpdated S mayAffectOrder touches flags) := by
  obtain ⟨h1, h2⟩ := (dataUpdated_redraws (l := l₀.markDetail flags) S mayAffectOrder touches
    flags).sameDetail
  refine ⟨hk, hr, ?_, fun c hc => ?_⟩
  · rw [h1, markDetail_connectionDetail, h.1]
  · rw [h2, markDetail_flags (h.1.trans hc), h.2, hf]

/-- What a call does with the dialog. -/
inductive DetailStep (l : ConnectionList) (op : Op) (l' : ConnectionList) : Prop
  | updates (c : Connection) (d : ConnectionData) (flags : Flags) (hop : op = .change c d flags)
      (hc : c ∈ l.storage.connectionMap) (hd : l.connectionDetail = some c)
      (hd' : l'.connectionDetail = some c) (hf : l'.connectionDetailUpdateFlags = flags)
  | resets (hop : op = .resetConnectionDetailRefresh)
      (hf : l'.connectionDetailUpdateFlags = 0)
  | selects (hop : op = .initConnectionDetail) (hf : l'.connectionDetailUpdateFlags = -1)
  | closes (hk : KeepsPending l op) (hd : l'.connectionDetail = none)
  | reports (h : Reports l op l')

theorem step_detail (S : StdSort) (inet : InetText) (l : ConnectionList) (op : Op) :
    DetailStep l op (step S inet l op) := by
  -- a call that leaves the detail dialog reports nothing
  have hsame : ∀ op : Op, SameDetail l (step S inet l op) → KeepsPending l op →
      op.isReset = false → (∀ c, reported l c op = 0) →
      DetailStep l op (step S inet l op) := fun op h hk hr h0 => .reports (h.reports hk hr h0)
  cases op with
  | change c d flags =>
    by_cases hc : c ∈ l.storage.connectionMap
    · have hstep : step S inet l (.change c d flags) = l.change S c d flags := if_pos hc
      obtain ⟨h1, h2⟩ := (update_redraws
        (l := { l with storage := l.storage.setConnectionData c d }) S c flags).sameDetail
      have hdetail : (l.change S c d flags).connectionDetail = l.connectionDetail := by
        refine h1.trans ?_
        unfold setDetailFlags
        split_ifs <;> rfl
      have hflags := h2.trans (setDetailFlags_flags c flags)
      -- an update of the shown connection replaces the flags, any other leaves them
      by_cases hd : l.connectionDetail = some c
      · refine .updates c d flags rfl hc hd ?_ ?_
        · rw [hstep, hdetail, hd]
        · rw [hstep]
          exact hflags.trans (if_pos hd)
      · refine .reports ⟨fun _ h => absurd h hd, rfl, ?_, ?_⟩
        · rw [hstep, hdetail]
        · intro c' hc'
          have hne : ¬ (c ∈ l.storage.connectionMap ∧ c = c') := fun h => hd (h.2 ▸ hc')
          rw [hstep, reported, if_neg hne, BitVec.ofNat_eq_ofNat, BitVec.or_zero]
          exact hflags.trans (if_neg hd)
    · have hstep : step S inet l (.change c d flags) = l := if_neg hc
      refine hsame _ ?_ (fun h => absurd h hc) rfl fun c' => if_neg fun h => hc h.1
      rw [hstep]
      exact .refl l
  | resetConnectionDetailRefresh => exact .resets rfl rfl
  | initConnectionDetail => exact .selects rfl rfl
  | clear => exact .closes trivial rfl
  | remove c =>
    rcases remove_detail l c with hnone | h
    · exact .closes trivial hnone.1
    · exact hsame _ h trivial rfl fun _ => rfl
  | resolveAddress a resolved =>
    exact .reports (reports_of_mark { l with
      storage := l.setResolvedAddress a resolved
      dataResolvedCount := l.dataResolvedCount + 1 } ⟨rfl, rfl⟩ trivial rfl fun _ => rfl)
  | resolvePort p resolved =>
    exact .reports (reports_of_mark { l with
      storage := l.setResolvedPort p resolved
      dataResolvedCount := l.dataResolvedCount + 1 } ⟨rfl, rfl⟩ trivial rfl fun _ => rfl)
  | addressDataUpdated a | portDataUpdated p =>
    exact .reports (reports_of_mark l (.refl l) trivial rfl fun _ => rfl)
  | getAddress a add => exact hsame _ (getAddress_sameDetail inet l a add) trivial rfl fun _ => rfl
  | getPort p add => exact hsame _ (getPort_sameDetail l p add) trivial rfl fun _ => rfl
  | add c d => exact hsame _ (step_add_sameDetail S inet l c d) trivial rfl fun _ => rfl
  | rehash m => exact hsame _ (rehash_sameDetail l m) trivial rfl fun _ => rfl
  | getNextUpdate =>
    exact hsame _ (getNextUpdate_sameDetail l) trivial rfl fun _ => rfl
  | invalidateAllVisible =>
    exact hsame _ ⟨rfl, rfl⟩ trivial rfl fun _ => rfl
  | invalidateCursor =>
    exact hsame _ (invalidateCursor_redraws l).sameDetail trivial rfl fun _ => rfl
  | moveCursor amount =>
    exact hsame _ (moveCursor_sameDetail l amount) trivial rfl fun _ => rfl
  | doScroll amount =>
    exact hsame _ (doScroll_sameDetail l amount) trivial rfl fun _ => rfl
  | setTargetSize size =>
    exact hsame _ (setTargetSize_sameDetail l size) trivial rfl fun _ => rfl
  | setSortMode mode isAscending =>
    exact hsame _ (setSortMode_sameDetail l mode isAscending) trivial rfl fun _ => rfl

/-! ## Runs -/

/-- A call, with the union of the flags reported for the shown connection. The union starts again
when the dialog was painted and when it shows another connection. -/
def trackStep (S : StdSort) (inet : InetText) (x : ConnectionList × Flags) (op : Op) :
    ConnectionList × Flags :=
  let l := step S inet x.1 op
  (l, if op.isReset then 0
    else match l.connectionDetail with
    | some c => (if x.1.connectionDetail = some c then x.2 else 0) ||| reported x.1 c op
    | none => 0)

def track (S : StdSort) (inet : InetText) (ops : List Op) : ConnectionList × Flags :=
  ops.foldl (trackStep S inet) ({}, 0)

theorem track_fst (S : StdSort) (inet : InetText) (ops : List Op) :
    (track S inet ops).1 = run S inet {} ops := by
  suffices h : ∀ x : ConnectionList × Flags,
      (ops.foldl (trackStep S inet) x).1 = run S inet x.1 ops from h _
  induction ops with
  | nil => exact fun x => rfl
  | cons op ops ih => exact fun x => ih _

variable {x : ConnectionList × Flags}

/-- The flags of the dialog are no more than what was reported. -/
def Justified (x : ConnectionList × Flags) : Prop :=
  ∀ c, x.1.connectionDetail = some c → x.1.connectionDetailUpdateFlags.Within x.2

/-- The flags of the dialog have all that was reported. -/
def Unread (x : ConnectionList × Flags) : Prop :=
  ∀ c, x.1.connectionDetail = some c → x.2.Within x.1.connectionDetailUpdateFlags

theorem trackStep_snd {inet : InetText} {op : Op} (hop : op.isReset = false)
    (hc : (step S inet x.1 op).connectionDetail = some c) : (trackStep S inet x op).2 =
      (if x.1.connectionDetail = some c then x.2 else 0) ||| reported x.1 c op := by
  unfold trackStep
  simp only [hop, Bool.false_eq_true, if_false, hc]

/-- A call that keeps the shown connection unions what it reports on both sides. -/
theorem Reports.track {inet : InetText} {op : Op} (h : Reports x.1 op (step S inet x.1 op))
    (hc : (step S inet x.1 op).connectionDetail = some c) :
    x.1.connectionDetail = some c ∧
      (trackStep S inet x op).2 = x.2 ||| reported x.1 c op ∧
      (trackStep S inet x op).1.connectionDetailUpdateFlags =
        x.1.connectionDetailUpdateFlags ||| reported x.1 c op := by
  have hd : x.1.connectionDetail = some c := h.connectionDetail ▸ hc
  refine ⟨hd, ?_, h.flags c hd⟩
  rw [trackStep_snd h.not_reset hc, if_pos hd]

theorem trackStep_justified (S : StdSort) (inet : InetText) (x : ConnectionList × Flags) (op : Op)
    (hj : Justified x) : Justified (trackStep S inet x op) := by
  intro c hc
  change (step S inet x.1 op).connectionDetail = some c at hc
  rcases step_detail S inet x.1 op with ⟨c', d, flags, rfl, hmem, hd, hd', hf⟩ | ⟨rfl, hf⟩ |
    ⟨rfl, hf⟩ | ⟨-, hd⟩ | h
  · obtain rfl : c' = c := Option.some.inj (hd'.symm.trans hc)
    rw [trackStep_snd rfl hc, if_pos hd, reported, if_pos ⟨hmem, rfl⟩]
    exact hf.symm ▸ Flags.within_or_right _ _
  · exact hf.symm ▸ Flags.zero_within _
  · rw [trackStep_snd rfl hc]
    exact hf.symm ▸ Flags.within_or_right _ _
  · rw [hd] at hc
    cases hc
  · obtain ⟨hd, h1, h2⟩ := h.track hc
    rw [h1, h2]
    exact (hj c hd).or _

/-- **A call keeps all that was reported exactly under the condition.** -/
theorem trackStep_unread_iff (S : StdSort) (inet : InetText) (x : ConnectionList × Flags) (op : Op)
    (hj : Justified x) (hu : Unread x) : Unread (trackStep S inet x op) ↔ KeepsPending x.1 op := by
  rcases step_detail S inet x.1 op with ⟨c, d, flags, rfl, hmem, hd, hd', hf⟩ | ⟨rfl, hf⟩ |
    ⟨rfl, hf⟩ | ⟨hk, hd⟩ | h
  · have hx := (hu c hd).antisymm (hj c hd)
    have h2 : (trackStep S inet x (.change c d flags)).2 = x.2 ||| flags := by
      rw [trackStep_snd rfl hd', if_pos hd, reported, if_pos ⟨hmem, rfl⟩]
    constructor
    · intro h _ _
      have hw := h c hd'
      rw [h2] at hw
      rw [← hx]
      exact (Flags.or_within_iff.mp (hf ▸ hw)).1
    · intro h c' _
      rw [h2, hx]
      exact hf.symm ▸ Flags.or_within_iff.mpr ⟨h hmem hd, Flags.within_refl _⟩
  · refine iff_of_true (fun c hc => ?_) trivial
    exact Flags.zero_within _
  · refine iff_of_true (fun c hc => ?_) trivial
    exact hf.symm ▸ Flags.within_neg_one _
  · refine iff_of_true (fun c hc => ?_) hk
    exact absurd (hd.symm.trans hc) (Option.some_ne_none c).symm
  · refine iff_of_true (fun c hc => ?_) h.keeps
    obtain ⟨hd, h1, h2⟩ := h.track hc
    rw [h1, h2]
    exact (hu c hd).or _

/-- **Along a run the flags of the dialog have everything that was reported for the shown connection
since the dialog was painted exactly when every call meets the condition.** -/
theorem unread_iff (S : StdSort) (inet : InetText) (ops : List Op) :
    (∀ i ≤ ops.length, let x := track S inet (ops.take i)
      ∀ c, x.1.connectionDetail = some c → x.2.Within x.1.connectionDetailUpdateFlags) ↔
    ∀ i (hi : i < ops.length), KeepsPending (run S inet {} (ops.take i)) ops[i] := by
  have h := GuardedRun.foldl_prefix_iff (f := trackStep S inet) (I := Justified) (P := Unread)
    (C := fun x op => KeepsPending x.1 op) (trackStep_justified S inet)
    (trackStep_unread_iff S inet) (s := ({}, 0)) (fun c hc => nomatch hc)
    (fun c hc => nomatch hc) ops
  refine h.trans (forall₂_congr fun i hi => ?_)
  rw [← track_fst]
  rfl

private def detailAddr : Address := .ip4 0x0C00007F#32
private def detailPort : Port := ⟨.tcp, 2600⟩
private def detailConn : Connection :=
  ⟨detailAddr, detailPort, detailAddr, detailPort, rfl, rfl⟩

/-- A connection is shown and painted. Then its traffic changes, and after that its state. -/
def updatedTwice : List Op :=
  [.setTargetSize 1, .getAddress detailAddr true, .getPort detailPort true, .add detailConn {},
    .initConnectionDetail, .resetConnectionDetailRefresh,
    .change detailConn { traffic := { rxBytes := 1 } } EConnectionUpdateFlags.rxBytes,
    .change detailConn { traffic := { rxBytes := 1 }, state := 3 }
      EConnectionUpdateFlags.protoState]

/-- The dialog does not show the new traffic. -/
theorem updatedTwice_lost : ¬ ∀ (S : StdSort) (inet : InetText) (ops : List Op),
    let x := track S inet ops
    ∀ c, x.1.connectionDetail = some c → x.2.Within x.1.connectionDetailUpdateFlags := fun h =>
  absurd (h .insertion .plain updatedTwice detailConn (by decide)) (by decide)

end ConnectionList

end Conntop
