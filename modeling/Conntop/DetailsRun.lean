import Conntop.ConnectionDetail
import Conntop.DetailsUpdate
import Conntop.StorageAfter

/-!
# The dialog with the details over the list

The dialog is opened for the connection that the list selects. The list collects what changed of
that connection, and the screen hands it over to the dialog when it is updated.

* `step_content` is what a call on the list reports of the connection that is selected.
* `Event`: the calls of others, the updates of the screen, and the keys.
* `drop` keeps the flags that an update of the connection put its own in place of, until they are
  reported again.

Main result: `run_shows_details`. In every run the open dialog looks like one that is drawn as a
whole. After an update it has the data of the connection in each column of which no flag was lost,
and says so if the connection was removed.
-/

namespace Conntop

/-! ## What a call reports -/

namespace ConnectionList

variable {l : ConnectionList} {S : StdSort} {inet : InetText} {c : Connection} {op : Op}

theorem content_of_agree {st st' : ConnectionStorage} (h : AgreeOn st st' c) (col : Column) :
    content st c col = content st' c col := by
  cases col <;> simp only [content, h.data, h.srcAddr, h.dstAddr, h.srcPort, h.dstPort]

/-- What is shown of a connection follows from the contents of its columns. -/
theorem value_congr {st st' : ConnectionStorage} {col : Column}
    (h : content st' c col = content st c col) :
    DialogConnectionDetails.value st' c col = DialogConnectionDetails.value st c col := by
  cases col with
  | proto => rfl
  | protoState =>
    have hstate := (Content.state.inj h).2
    dsimp only [DialogConnectionDetails.value, DialogConnectionDetails.stateText]
    rw [hstate]
  | srcAddress | dstAddress =>
    exact congrArg DialogConnectionDetails.addressValue (Content.address.inj h).2
  | srcPort | dstPort =>
    exact congrArg (fun data : PortData => DialogConnectionDetails.Member.port (utf8 data.service))
      (Content.port.inj h).2
  | rxPackets | txPackets | rxBytes | txBytes | rxSpeed | txSpeed =>
    exact congrArg DialogConnectionDetails.Member.count (Content.count.inj h)

/-- **What changes of the selected connection is reported.** -/
theorem step_content (S : StdSort) (inet : InetText) (hi : Inv l) (hop : Allowed l op)
    (hc : l.connectionDetail = some c) (hc' : (step S inet l op).connectionDetail = some c)
    (col : Column) : (reported l c op).test col.flag = true ∨
      content (step S inet l op).storage c col = content l.storage c col := by
  have hstored := hi.detail c hc
  cases op with
  | change x d flags =>
    rw [step_storage S inet hi]
    change _ ∨ content (l.storage.setConnectionData x d) c col = _
    by_cases hx : x = c
    · subst hx
      by_cases htest : flags.test col.flag = true
      · left
        rw [reported, if_pos ⟨mem_stored.mp hstored, rfl⟩]
        exact htest
      · exact .inr (content_of_covers hop (by simpa using htest))
    · exact .inr (content_setConnectionData_ne (Ne.symm hx) d col)
  | resolveAddress a resolved =>
    rw [step_storage S inet hi]
    by_cases htest : (addressFlags a c).test col.flag = true
    · exact .inl htest
    · refine .inr (content_setAddressData ?_)
      cases hhas : c.hasAddr a with
      | true => exact .inl ⟨rfl, by simpa using htest⟩
      | false => exact .inr rfl
  | resolvePort p resolved =>
    rw [step_storage S inet hi]
    by_cases htest : (portFlags p c).test col.flag = true
    · exact .inl htest
    · refine .inr (content_setPortData ?_)
      cases hhas : c.hasPorts && c.hasPort p with
      | true => exact .inl ⟨rfl, by simpa using htest⟩
      | false => exact .inr rfl
  | getAddress a add =>
    exact .inr (content_of_agree ((getAddress_same hi.ends inet a add).agree c hstored) col)
  | getPort p add =>
    exact .inr (content_of_agree ((getPort_same hi.ends p add).agree c hstored) col)
  | rehash m => exact .inr (content_of_agree ((rehash_same l m).agree c hstored) col)
  | add x d =>
    rw [step_storage S inet hi]
    change _ ∨ content (if l.storage.HasEnds x then _ else _) c col = _
    split_ifs
    · exact .inr (content_of_agree (agreeOn_addConnection hstored) col)
    · exact .inr rfl
  | remove x =>
    -- The connection is still selected, so it is another one that was removed.
    have hmem := (step_inv S inet hi (.remove x)).detail c hc'
    rw [mem_stored, step_storage S inet hi] at hmem
    have hne := ((ConnectionStorage.mem_removeConnection x c).mp hmem).1
    rw [step_storage S inet hi]
    exact .inr (content_of_agree (agreeOn_removeConnection hne) col)
  | clear => exact absurd hc' (Option.some_ne_none c).symm
  | _ =>
    rw [step_storage S inet hi]
    exact .inr rfl

/-- The calls that the screen makes for the dialog. -/
def isDetail : Op → Bool
  | .initConnectionDetail | .resetConnectionDetailRefresh => true
  | _ => false

/-- If nothing is selected, then nothing was, or all is flagged. -/
theorem step_none (S : StdSort) (inet : InetText) (l : ConnectionList) {op : Op}
    (hop : isDetail op = false) (h : (step S inet l op).connectionDetail = none) :
    (step S inet l op).connectionDetailUpdateFlags = -1 ∨ SameDetail l (step S inet l op) := by
  have hmark : ∀ (l₀ : ConnectionList) (m : Bool) (t : Connection → Bool) (f : Connection → Flags),
      SameDetail l l₀ → ((l₀.markDetail f).dataUpdated S m t f).connectionDetail = none →
      SameDetail l ((l₀.markDetail f).dataUpdated S m t f) := by
    intro l₀ m t f hl hnone
    have hdata := (dataUpdated_redraws (l := l₀.markDetail f) S m t f).sameDetail
    have hdetail : l₀.connectionDetail = none := by
      rw [← markDetail_connectionDetail l₀ f, ← hdata.1, hnone]
    have hsame : l₀.markDetail f = l₀ := by
      unfold markDetail
      rw [hdetail]
    rw [hsame] at hdata ⊢
    exact hl.trans hdata
  cases op with
  | change c d flags =>
    right
    change SameDetail l (if c ∈ l.storage.connectionMap then l.change S c d flags else l)
    change (if c ∈ l.storage.connectionMap then l.change S c d flags else l).connectionDetail =
      none at h
    split_ifs at h ⊢
    · have hupdate := (update_redraws
        (l := { l with storage := l.storage.setConnectionData c d }) S c flags).sameDetail
      obtain ⟨f, hf⟩ := setDetailFlags_eq { l with storage := l.storage.setConnectionData c d } c
        flags
      have hnone : l.connectionDetail = none := by
        have hdetail := hupdate.1.symm.trans h
        rwa [hf] at hdetail
      have hleft : setDetailFlags { l with storage := l.storage.setConnectionData c d } c flags =
          { l with storage := l.storage.setConnectionData c d } :=
        if_neg fun hd => Option.some_ne_none c (hd.symm.trans hnone)
      rw [hleft] at hupdate
      exact hupdate
    · exact .refl l
  | clear => exact .inl rfl
  | remove c => exact (remove_detail l c).imp_left And.right
  | resolveAddress a resolved | resolvePort p resolved =>
    exact .inr (hmark _ _ _ _ ⟨rfl, rfl⟩ h)
  | addressDataUpdated a | portDataUpdated p => exact .inr (hmark l _ _ _ (.refl l) h)
  | getAddress a add => exact .inr (getAddress_sameDetail inet l a add)
  | getPort p add => exact .inr (getPort_sameDetail l p add)
  | add c d => exact .inr (step_add_sameDetail S inet l c d)
  | rehash m => exact .inr (rehash_sameDetail l m)
  | getNextUpdate => exact .inr (getNextUpdate_sameDetail l)
  | invalidateAllVisible => exact .inr ⟨rfl, rfl⟩
  | invalidateCursor => exact .inr (invalidateCursor_redraws l).sameDetail
  | moveCursor amount => exact .inr (moveCursor_sameDetail l amount)
  | doScroll amount => exact .inr (doScroll_sameDetail l amount)
  | setTargetSize size => exact .inr (setTargetSize_sameDetail l size)
  | setSortMode mode isAscending => exact .inr (setSortMode_sameDetail l mode isAscending)
  | initConnectionDetail | resetConnectionDetailRefresh => exact Bool.noConfusion hop

end ConnectionList

/-! ## Flags that are lost -/

theorem Column.exists_twoPow (col : Column) : ∃ i, col.flag = BitVec.twoPow 32 i ∧ i < 32 := by
  cases col
  · exact ⟨0, rfl, by decide⟩
  · exact ⟨1, rfl, by decide⟩
  · exact ⟨2, rfl, by decide⟩
  · exact ⟨3, rfl, by decide⟩
  · exact ⟨4, rfl, by decide⟩
  · exact ⟨5, rfl, by decide⟩
  · exact ⟨6, rfl, by decide⟩
  · exact ⟨7, rfl, by decide⟩
  · exact ⟨8, rfl, by decide⟩
  · exact ⟨9, rfl, by decide⟩
  · exact ⟨10, rfl, by decide⟩
  · exact ⟨11, rfl, by decide⟩

/-- The flags of `a` that are not in `b`. -/
def Flags.without (a b : Flags) : Flags := a &&& ~~~b

theorem Flags.without_zero (a : Flags) : a.without 0 = a := by
  unfold without
  exact BitVec.and_allOnes

theorem Flags.test_without (a b : Flags) (col : Column) :
    (a.without b).test col.flag = (a.test col.flag && !b.test col.flag) := by
  obtain ⟨i, hcol, hi⟩ := col.exists_twoPow
  have hne : BitVec.twoPow 32 i ≠ 0 := by
    rw [← hcol]
    cases col <;> decide
  have htest : ∀ x : Flags, x.test col.flag = x.getLsbD i := fun x => by
    rw [Flags.test, hcol, BitVec.and_twoPow]
    cases x.getLsbD i with
    | true =>
      rw [if_pos rfl]
      exact bne_iff_ne.mpr hne
    | false => simp
  rw [htest, htest, htest, without, BitVec.getLsbD_and, BitVec.getLsbD_not, decide_eq_true hi,
    Bool.true_and]

/-! ## Texts that fit -/

/-- The port and its service are in the window box. -/
def ServiceFits (p : Port) (service : String) : Prop :=
  p.toText.length + (utf8 service).length ≤ 67

theorem serviceFits_nil (p : Port) : ServiceFits p "" := by
  have hlength := DialogConnectionDetails.length_toText p
  unfold ServiceFits
  rw [utf8_empty, List.length_nil]
  omega

/-- The texts of addresses are printable, and short on every platform. -/
structure InetText.Fits (inet : InetText) : Prop where
  length : ∀ a, (utf8 (inet.ntop a)).length ≤ 67
  printable : ∀ a, IsText (utf8 (inet.ntop a))

theorem InetText.plain_fits : InetText.plain.Fits where
  length a := by
    have hdecimal : ∀ n < 256, (Inet.decimal n).length ≤ 3 := fun n hn =>
      (Nat.length_toDigits_le_iff (by decide) (by decide)).mpr (hn.trans (by decide))
    rw [utf8_of_isText (isText_ntop a)]
    cases a with
    | ip4 raw =>
      have hoctet := fun i => hdecimal _ (Inet.octet_lt raw i)
      have h0 := hoctet 0
      have h1 := hoctet 1
      have h2 := hoctet 2
      have h3 := hoctet 3
      change (String.ofList _).toList.length ≤ 67
      rw [String.toList_ofList]
      simp [Inet.octets, List.intercalate, List.intersperse]
      omega
    | ip6 a b c d =>
      change (String.ofList _).toList.length ≤ 67
      rw [String.toList_ofList]
      simp [Inet.groups, Inet.hex, List.intercalate, List.intersperse]
  printable := isText_utf8_ntop

def DetailTexts.plain : DetailTexts := { Texts.plain with getNameString _ := "Unknown".toList }

theorem DetailTexts.plain_fits : DetailTexts.plain.Fits where
  zero := rfl
  size n := by
    have hlt : n.toNat % 2000 < 10 ^ 4 := (Nat.mod_lt _ (by decide)).trans (by decide)
    have hdigits : (Nat.toDigits 10 (n.toNat % 2000)).length ≤ 4 :=
      (Nat.length_toDigits_le_iff (by decide) (by decide)).mpr hlt
    have hunit : " B".toList.length = 2 := rfl
    change (Nat.toDigits 10 (n.toNat % 2000) ++ " B".toList).length ≤ 9
    rw [List.length_append, hunit]
    omega
  code _ := by
    change "?".toList.length ≤ 2
    decide
  name _ := by
    change "Unknown".toList.length ≤ 52
    decide
  printable := Texts.plain_isPrintable

/-- The text of an address is that of the platform, and all of its texts are printable. -/
def AddressFits (inet : InetText) (texts : DetailTexts) (a : Address) (data : AddressData) : Prop :=
  data.numericString = inet.ntop a ∧ texts.AddressPrintable data

def PortFits (p : Port) (data : PortData) : Prop := ServiceFits p data.service ∧ data.IsPrintable

def StorageFits (inet : InetText) (texts : DetailTexts) (st : ConnectionStorage) : Prop :=
  st.HoldsAll (AddressFits inet texts) PortFits

variable {inet : InetText} {texts : DetailTexts} {st : ConnectionStorage} {c : Connection}

theorem mem_addrOf (hends : st.HasEnds c) (s : Side) :
    DialogConnectionDetails.addrOf c s ∈ st.addressMap := by
  cases s with
  | src => exact hends.1
  | dst => exact hends.2.1

theorem mem_portOf (hends : st.HasEnds c) (s : Side) :
    DialogConnectionDetails.portOf c s ∈ st.portMap := by
  cases s with
  | src => exact hends.2.2.1
  | dst => exact hends.2.2.2

theorem StorageFits.data (h : StorageFits inet texts st) (hinet : inet.Fits)
    (hends : st.HasEnds c) : DialogConnectionDetails.DataFits texts st c := by
  refine ⟨fun s => ?_, fun s => (h.port _ (mem_portOf hends s)).1,
    fun s => (h.address _ (mem_addrOf hends s)).2, fun s => (h.port _ (mem_portOf hends s)).2⟩
  rw [(h.address _ (mem_addrOf hends s)).1]
  exact hinet.length _

/-- What a call brings in is printable, and a service has a buffer of 32 bytes. -/
def ConnectionList.OpFits (texts : DetailTexts) : ConnectionList.Op → Prop
  | .resolveAddress _ resolved => resolved.IsPrintable ∧ texts.NamePrintable resolved.country
  | .resolvePort p resolved => ServiceFits p resolved.service ∧ resolved.IsPrintable
  | _ => True

theorem ConnectionList.step_fits (S : StdSort) {l : ConnectionList} (hi : Inv l)
    (hinet : inet.Fits) {op : Op} (hop : OpFits texts op) (h : StorageFits inet texts l.storage) :
    StorageFits inet texts (step S inet l op).storage := by
  refine step_holdsAll S hi
    (fun a => ⟨rfl, ⟨hinet.printable a, isText_nil, isText_nil⟩, fun hne => absurd rfl hne⟩)
    (fun p => ⟨serviceFits_nil p, isText_nil⟩) ?_ h
  cases op with
  | resolveAddress a resolved =>
    exact fun data hdata => ⟨hdata.1, hdata.2.toIsPrintable.setResolved hop.1, hop.2⟩
  | resolvePort p resolved => exact fun _ _ => hop
  | _ => trivial

/-! ## The screen with the dialog -/

section Screen

variable [PadLibrary Attr]

/-- What of the screen concerns the dialog. -/
structure DetailsScreen where
  list : ConnectionList := {}
  dialog : DialogConnectionDetails := .init
  showCursor : Bool := true

namespace DetailsScreen

open DialogConnectionDetails (Drawn Shows Closed member value look)

variable (S : StdSort) (inet : InetText) (texts : DetailTexts) (s : DetailsScreen)

/-- `getConnectionDetail`. -/
def getConnectionDetail (l : ConnectionList) : Option (ConnectionStorage × Connection) :=
  l.connectionDetail.map fun c => (l.storage, c)

/-- The end of `updateList`. -/
def updateDetails : DetailsScreen :=
  if s.list.connectionDetailUpdateFlags ≠ 0 then
    { s with
      dialog := if s.dialog.isOpen then
        s.dialog.update texts (getConnectionDetail s.list) s.list.connectionDetailUpdateFlags
        else s.dialog
      list := s.list.resetConnectionDetailRefresh }
  else s

/-- The case of ENTER in `handleKey`. -/
def openDetails : DetailsScreen :=
  let list := s.list.initConnectionDetail
  match list.connectionDetail with
  | some c => { s with list, dialog := s.dialog.open texts (some (list.storage, c)) }
  | none => { s with list }

def handleKey : Key → DetailsScreen
  | .enter => if s.showCursor then openDetails texts s else s
  | .f 4 => { s with showCursor := !s.showCursor }
  | _ => s

/-- A key is for the dialog if it is open. -/
def onKey (key : Key) : DetailsScreen :=
  if s.dialog.isOpen then
    match s.dialog.handleKey key with
    | some dialog => { s with dialog }
    | none => handleKey texts s key
  else handleKey texts s key

/-- Keys that another dialog takes are left out. -/
inductive Event
  | list (op : ConnectionList.Op)
  | updateList
  | key (key : Key)

/-- The flags of an update cover what it changed. -/
def Arrives (l : ConnectionList) (op : ConnectionList.Op) : Prop :=
  ConnectionList.Allowed l op ∧ ConnectionList.isDetail op = false

instance (l : ConnectionList) : DecidablePred (Arrives l) :=
  fun _ => inferInstanceAs (Decidable (_ ∧ _))

def step : Event → DetailsScreen
  | .list op => if Arrives s.list op then { s with list := s.list.step S inet op } else s
  | .updateList => updateDetails texts s
  | .key key => onKey texts s key

/-- The flags that an update of the shown connection did not keep, as long as no other call has
reported them again. -/
def drop (s : DetailsScreen) (dropped : Flags) : Event → Flags
  | .list (.change c d flags) =>
    if Arrives s.list (.change c d flags) ∧ s.list.connectionDetail = some c then
      dropped ||| s.list.connectionDetailUpdateFlags.without flags
    else dropped
  | .updateList => dropped.without s.list.connectionDetailUpdateFlags
  | _ => dropped

def track (x : DetailsScreen × Flags) (event : Event) : DetailsScreen × Flags :=
  (step S inet texts x.1 event, drop x.1 x.2 event)

/-- The open dialog, drawn on a new pad. -/
def whole (d : DialogConnectionDetails) : Pad Attr :=
  d.drawUpdate texts (-1) (d.drawStatic (.new 80 22))

variable {S inet texts s} {dropped : Flags} {c : Connection} {d : DialogConnectionDetails}

/-! ## The invariant -/

/-- Each column has its flag, or has lost it, or is the connection's. -/
def Follows (l : ConnectionList) (dropped : Flags) (c : Connection) (d : DialogConnectionDetails) :
    Prop :=
  ∀ col, col ≠ .proto → l.connectionDetailUpdateFlags.test col.flag = true ∨
    dropped.test col.flag = true ∨ (d.member col).seen = (value l.storage c col).seen

structure Tracks (inet : InetText) (texts : DetailTexts) (s : DetailsScreen) (dropped : Flags) :
    Prop where
  inv : ConnectionList.Inv s.list
  fits : StorageFits inet texts s.list.storage
  closed : s.dialog.isOpen = false → Closed s.dialog
  drawn : s.dialog.isOpen = true → Drawn texts s.dialog
  shows : s.dialog.isOpen = true → ∀ c, s.list.connectionDetail = some c →
    s.dialog.content = .normal ∧ Shows s.list.storage c s.dialog ∧
      Follows s.list dropped c s.dialog
  removed : s.dialog.isOpen = true → s.list.connectionDetail = none →
    s.dialog.content = .removed ∨
      s.dialog.content = .normal ∧ s.list.connectionDetailUpdateFlags ≠ 0

theorem Tracks.content_ne (h : Tracks inet texts s dropped) (hopen : s.dialog.isOpen = true) :
    s.dialog.content ≠ .none := by
  cases hdetail : s.list.connectionDetail with
  | some c =>
    rw [(h.shows hopen c hdetail).1]
    decide
  | none =>
    rcases h.removed hopen hdetail with hremoved | ⟨hnormal, -⟩
    · rw [hremoved]
      decide
    · rw [hnormal]
      decide

theorem Tracks.hasEnds (h : Tracks inet texts s dropped) (hc : s.list.connectionDetail = some c) :
    s.list.storage.HasEnds c :=
  h.inv.ends c (h.inv.detail c hc)

/-- The addresses of a connection keep their texts. -/
theorem shows_congr {st st' : ConnectionStorage} (h : StorageFits inet texts st)
    (h' : StorageFits inet texts st') (hends : st.HasEnds c) (hends' : st'.HasEnds c)
    (hshows : Shows st c d) : Shows st' c d := by
  refine ⟨hshows.hasPorts, hshows.typeName, fun s => ?_, hshows.port⟩
  rw [hshows.address, (h.address _ (mem_addrOf hends s)).1,
    (h'.address _ (mem_addrOf hends' s)).1]

theorem drop_mono {op : ConnectionList.Op} {flag : Flags} (h : dropped.test flag = true) :
    (drop s dropped (.list op)).test flag = true := by
  cases op with
  | change c d flags =>
    dsimp only [drop]
    split_ifs
    · rw [Flags.test_or, h, Bool.true_or]
    · exact h
  | _ => exact h

/-- A call on the list that leaves the connection selected. -/
theorem Tracks.follows (h : Tracks inet texts s dropped) {op : ConnectionList.Op}
    (hop : Arrives s.list op) (hopen : s.dialog.isOpen = true)
    (hc' : (s.list.step S inet op).connectionDetail = some c) :
    s.list.connectionDetail = some c ∧
      Follows (s.list.step S inet op) (drop s dropped (.list op)) c s.dialog := by
  rcases ConnectionList.step_detail S inet s.list op with
    ⟨x, d, flags, rfl, hmem, hd, hd', hf⟩ | ⟨rfl, -⟩ | ⟨rfl, -⟩ | ⟨-, hd⟩ | hreports
  · obtain rfl : x = c := Option.some.inj (hd'.symm.trans hc')
    refine ⟨hd, fun col hcol => ?_⟩
    have hdrop : drop s dropped (.list (.change x d flags)) =
        dropped ||| s.list.connectionDetailUpdateFlags.without flags := if_pos ⟨hop, hd⟩
    rw [hf, hdrop, Flags.test_or, Flags.test_without]
    by_cases htest : flags.test col.flag = true
    · exact .inl htest
    · rcases (h.shows hopen x hd).2.2 col hcol with hpending | hlost | hseen
      · simp [hpending, htest]
      · rw [hlost]
        simp
      · rcases ConnectionList.step_content S inet h.inv hop.1 hd hd' col with hreported | hsame
        · rw [ConnectionList.reported, if_pos ⟨hmem, rfl⟩] at hreported
          exact absurd hreported htest
        · exact .inr (.inr (hseen.trans (by rw [ConnectionList.value_congr hsame])))
  · exact Bool.noConfusion hop.2
  · exact Bool.noConfusion hop.2
  · exact absurd (hd.symm.trans hc') (Option.some_ne_none c).symm
  · have hd : s.list.connectionDetail = some c := hreports.connectionDetail ▸ hc'
    refine ⟨hd, fun col hcol => ?_⟩
    rw [hreports.flags c hd, Flags.test_or]
    rcases (h.shows hopen c hd).2.2 col hcol with hpending | hlost | hseen
    · rw [hpending]
      exact .inl rfl
    · exact .inr (.inl (drop_mono hlost))
    · rcases ConnectionList.step_content S inet h.inv hop.1 hd hc' col with hreported | hsame
      · rw [hreported, Bool.or_true]
        exact .inl rfl
      · exact .inr (.inr (hseen.trans (by rw [ConnectionList.value_congr hsame])))

theorem Tracks.list (h : Tracks inet texts s dropped) {op : ConnectionList.Op}
    (hop : Arrives s.list op) (hinet : inet.Fits) (hfits : ConnectionList.OpFits texts op) :
    Tracks inet texts { s with list := s.list.step S inet op } (drop s dropped (.list op)) := by
  have hinv := ConnectionList.step_inv S inet h.inv op
  have hstorage := ConnectionList.step_fits S h.inv hinet hfits h.fits
  refine ⟨hinv, hstorage, h.closed, h.drawn, fun hopen c hc' => ?_, fun hopen hnone => ?_⟩
  · obtain ⟨hc, hfollows⟩ := h.follows hop hopen hc'
    obtain ⟨hcontent, hshows, -⟩ := h.shows hopen c hc
    have hends' := hinv.ends c (hinv.detail c hc')
    exact ⟨hcontent, shows_congr h.fits hstorage (h.hasEnds hc) hends' hshows, hfollows⟩
  · change s.dialog.content = .removed ∨ s.dialog.content = .normal ∧
      (s.list.step S inet op).connectionDetailUpdateFlags ≠ 0
    rcases ConnectionList.step_none S inet s.list hop.2 hnone with hall | hsame
    · rw [hall]
      cases hdetail : s.list.connectionDetail with
      | some c => exact .inr ⟨(h.shows hopen c hdetail).1, by decide⟩
      | none => exact (h.removed hopen hdetail).imp_right fun hnormal => ⟨hnormal.1, by decide⟩
    · rw [hsame.2]
      exact h.removed hopen (hsame.1 ▸ hnone)

/-- An update takes the columns that are flagged. -/
theorem Follows.update {d' : DialogConnectionDetails} (hfollows : Follows s.list dropped c d)
    (h : DialogConnectionDetails.Updated s.list.storage c s.list.connectionDetailUpdateFlags d d') :
    Follows s.list.resetConnectionDetailRefresh
      (dropped.without s.list.connectionDetailUpdateFlags) c d' := by
  intro col hcol
  right
  rw [Flags.test_without]
  by_cases htest : s.list.connectionDetailUpdateFlags.test col.flag = true
  · exact .inr (h.taken col hcol htest)
  · rcases hfollows col hcol with hpending | hlost | hseen
    · exact absurd hpending htest
    · simp [hlost, htest]
    · right
      rw [h.left col hcol htest]
      exact hseen

theorem Tracks.reset (h : Tracks inet texts s dropped) :
    ConnectionList.Inv s.list.resetConnectionDetailRefresh :=
  ConnectionList.step_inv .insertion inet h.inv .resetConnectionDetailRefresh

theorem Tracks.setCursor (h : Tracks inet texts s dropped) (b : Bool) :
    Tracks inet texts { s with showCursor := b } dropped :=
  ⟨h.inv, h.fits, h.closed, h.drawn, h.shows, h.removed⟩

variable [LawfulPadLibrary Attr]

theorem Tracks.update_some (htexts : texts.Fits) (hinet : inet.Fits)
    (h : Tracks inet texts s dropped) (hopen : s.dialog.isOpen = true)
    (hc : s.list.connectionDetail = some c) :
    Tracks inet texts { s with
        dialog := s.dialog.update texts (some (s.list.storage, c))
          s.list.connectionDetailUpdateFlags
        list := s.list.resetConnectionDetailRefresh }
      (dropped.without s.list.connectionDetailUpdateFlags) := by
  obtain ⟨hcontent, hshows, hfollows⟩ := h.shows hopen c hc
  have hne := h.content_ne hopen
  have hdata := h.fits.data hinet (h.hasEnds hc)
  have hdrawn : Drawn texts (s.dialog.update texts (some (s.list.storage, c))
      s.list.connectionDetailUpdateFlags) :=
    DialogConnectionDetails.update_drawn (h.drawn hopen) htexts hne hshows hdata
  have hupdated : DialogConnectionDetails.Updated s.list.storage c
      s.list.connectionDetailUpdateFlags s.dialog _ :=
    DialogConnectionDetails.update_updated texts hne
  have hisOpen := hupdated.isOpen.trans hopen
  refine ⟨h.reset, h.fits, fun hclosed => absurd (hisOpen.symm.trans hclosed) Bool.noConfusion,
    fun _ => hdrawn, fun _ x hx => ?_, fun _ hnone => ?_⟩
  · obtain rfl : c = x := Option.some.inj (hc.symm.trans hx)
    exact ⟨hupdated.content.trans hcontent, hupdated.toSameForm.shows hshows,
      hfollows.update hupdated⟩
  · exact absurd (hc.symm.trans hnone) (Option.some_ne_none c)

theorem Tracks.update_none (htexts : texts.Fits) (h : Tracks inet texts s dropped)
    (hopen : s.dialog.isOpen = true) (hnone : s.list.connectionDetail = none) (rest : Flags) :
    Tracks inet texts { s with
        dialog := s.dialog.update texts none s.list.connectionDetailUpdateFlags
        list := s.list.resetConnectionDetailRefresh } rest := by
  have hne := h.content_ne hopen
  have hdrawn : Drawn texts (s.dialog.update texts none s.list.connectionDetailUpdateFlags) :=
    DialogConnectionDetails.update_none_drawn (h.drawn hopen) htexts hne
  have hupdate : s.dialog.update texts none s.list.connectionDetailUpdateFlags = _ :=
    DialogConnectionDetails.update_none hne
  generalize s.dialog.update texts none s.list.connectionDetailUpdateFlags = d at hdrawn hupdate
  have hisOpen : d.isOpen = true := by
    rw [hupdate]
    exact hopen
  have hremoved : d.content = .removed := by rw [hupdate]
  refine ⟨h.reset, h.fits, fun hclosed => absurd (hisOpen.symm.trans hclosed) Bool.noConfusion,
    fun _ => hdrawn, fun _ x hx => ?_, fun _ _ => .inl hremoved⟩
  exact absurd (hx.symm.trans hnone) (Option.some_ne_none x)

/-- **After an update the dialog has what no flag was lost of.** -/
theorem updateDetails_spec (htexts : texts.Fits) (hinet : inet.Fits)
    (h : Tracks inet texts s dropped) :
    Tracks inet texts (updateDetails texts s)
        (dropped.without s.list.connectionDetailUpdateFlags) ∧
      (updateDetails texts s).list.connectionDetailUpdateFlags = 0 := by
  unfold updateDetails
  by_cases hflags : s.list.connectionDetailUpdateFlags = 0
  · rw [if_neg (not_not.mpr hflags)]
    refine ⟨?_, hflags⟩
    rw [hflags, Flags.without_zero]
    exact h
  · rw [if_pos hflags]
    refine ⟨?_, rfl⟩
    cases hopen : s.dialog.isOpen with
    | false =>
      have hnot : s.dialog.isOpen ≠ true := hopen ▸ Bool.false_ne_true
      rw [if_neg Bool.false_ne_true]
      exact ⟨h.reset, h.fits, h.closed, h.drawn, fun hopen' => absurd hopen' hnot,
        fun hopen' => absurd hopen' hnot⟩
    | true =>
      rw [if_pos rfl]
      cases hdetail : s.list.connectionDetail with
      | some c =>
        have hget : getConnectionDetail s.list = some (s.list.storage, c) := by
          unfold getConnectionDetail
          rw [hdetail, Option.map_some]
        rw [hget]
        exact h.update_some htexts hinet hopen hdetail
      | none =>
        have hget : getConnectionDetail s.list = none := by
          unfold getConnectionDetail
          rw [hdetail, Option.map_none]
        rw [hget]
        exact h.update_none htexts hopen hdetail _

theorem openDetails_tracks (htexts : texts.Fits)
    (hinet : inet.Fits) (h : Tracks inet texts s dropped)
    (hclosed : s.dialog.isOpen = false) : Tracks inet texts (openDetails texts s) dropped := by
  have hinv := h.inv.initConnectionDetail
  have hnot : s.dialog.isOpen ≠ true := hclosed ▸ Bool.false_ne_true
  unfold openDetails
  dsimp only
  split
  · next c hc =>
    have hdata := h.fits.data hinet (hinv.ends c (hinv.detail c hc))
    obtain ⟨hdrawn, hshows, hcontent, hopen, hseen⟩ :=
      DialogConnectionDetails.open_drawn (h.closed hclosed) htexts hdata
    refine ⟨hinv, h.fits, fun hno => absurd (hopen.symm.trans hno) Bool.noConfusion,
      fun _ => hdrawn, fun _ x hx => ?_, fun _ hnone => ?_⟩
    · obtain rfl : c = x := Option.some.inj (hc.symm.trans hx)
      exact ⟨hcontent, hshows, fun col hcol => .inr (.inr (hseen col hcol))⟩
    · exact absurd (hc.symm.trans hnone) (Option.some_ne_none c)
  · exact ⟨hinv, h.fits, h.closed, h.drawn, fun hopen => absurd hopen hnot,
      fun hopen => absurd hopen hnot⟩

/-- A key that the dialog does not take does not open it. -/
theorem handleKey_tracks (htexts : texts.Fits) (hinet : inet.Fits)
    (h : Tracks inet texts s dropped) {key : Key}
    (hkey : s.dialog.isOpen = false ∨ key ≠ .enter) :
    Tracks inet texts (handleKey texts s key) dropped := by
  unfold handleKey
  split
  · split_ifs
    · exact openDetails_tracks htexts hinet h (hkey.resolve_right fun hne => hne rfl)
    · exact h
  · exact h.setCursor _
  · exact h

theorem Tracks.close (h : Tracks inet texts s dropped) (hopen : s.dialog.isOpen = true) :
    Tracks inet texts { s with dialog := s.dialog.close } dropped := by
  have hclosed := DialogConnectionDetails.close_closed (h.drawn hopen)
  exact ⟨h.inv, h.fits, fun _ => hclosed, fun hno => Bool.noConfusion hno,
    fun hno => Bool.noConfusion hno, fun hno => Bool.noConfusion hno⟩

theorem onKey_tracks (htexts : texts.Fits) (hinet : inet.Fits)
    (h : Tracks inet texts s dropped) (key : Key) :
    Tracks inet texts (onKey texts s key) dropped := by
  unfold onKey
  cases hopen : s.dialog.isOpen with
  | false =>
    rw [if_neg Bool.false_ne_true]
    exact handleKey_tracks htexts hinet h (.inl hopen)
  | true =>
    rw [if_pos rfl]
    cases key with
    | up | down | left | right | ppage | npage => exact h
    | enter | esc => exact h.close hopen
    | space | f n | other ch => exact handleKey_tracks htexts hinet h (.inr (by simp))

theorem init_tracks (inet : InetText) (texts : DetailTexts) : Tracks inet texts {} 0 where
  inv := .init
  fits := ⟨fun a ha => absurd ha (AList.notMem_empty a),
    fun p hp => absurd hp (AList.notMem_empty p)⟩
  closed _ := DialogConnectionDetails.init_closed
  drawn hopen := Bool.noConfusion hopen
  shows hopen := Bool.noConfusion hopen
  removed hopen := Bool.noConfusion hopen

/-- The texts of what is resolved fit. -/
def EventFits (texts : DetailTexts) : Event → Prop
  | .list op => ConnectionList.OpFits texts op
  | _ => True

theorem track_tracks (S : StdSort) (htexts : texts.Fits)
    (hinet : inet.Fits) {x : DetailsScreen × Flags}
    (h : Tracks inet texts x.1 x.2) {event : Event} (hevent : EventFits texts event) :
    Tracks inet texts (track S inet texts x event).1 (track S inet texts x event).2 := by
  cases event with
  | list op =>
    change Tracks inet texts (if Arrives x.1.list op then _ else x.1) (drop x.1 x.2 (.list op))
    split_ifs with hop
    · exact h.list hop hinet hevent
    · have hsame : drop x.1 x.2 (.list op) = x.2 := by
        cases op with
        | change c d flags => exact if_neg fun hboth => hop hboth.1
        | _ => rfl
      rw [hsame]
      exact h
  | updateList => exact (updateDetails_spec htexts hinet h).1
  | key key => exact onKey_tracks htexts hinet h key

theorem foldl_tracks (S : StdSort) (htexts : texts.Fits)
    (hinet : inet.Fits) (events : List Event)
    (hevents : ∀ event ∈ events, EventFits texts event) {x : DetailsScreen × Flags}
    (h : Tracks inet texts x.1 x.2) :
    Tracks inet texts (events.foldl (track S inet texts) x).1
      (events.foldl (track S inet texts) x).2 := by
  induction events generalizing x with
  | nil => exact h
  | cons event events ih =>
    rw [List.forall_mem_cons] at hevents
    exact ih hevents.2 (track_tracks S htexts hinet h hevents.1)

/-! ## What is seen -/

theorem whole_filled (htexts : texts.Fits) (hd : d.Fits texts) (hcontent : d.content ≠ .none) :
    d.form.Filled look d.base (d.fieldLook texts) (whole texts d) := by
  obtain ⟨hready, hfilled⟩ :=
    DialogConnectionDetails.drawStatic_filled DialogConnectionDetails.blank_new hd hcontent
  obtain ⟨hready', hdrawn⟩ := DialogConnectionDetails.drawFields_filled htexts hd (-1)
    DialogConnectionDetails.fields (hready.attron .statusValue)
    (hfilled.of_cells (Pad.cells_attron hready.plain hready.attr))
  unfold whole
  rw [DialogConnectionDetails.drawUpdate_eq]
  refine Form.Filled.of_cells (hdrawn.congr fun f => ?_)
    (Pad.cells_attroff hready'.plain hready'.attr)
  have htest : Flags.test (-1) f.column.flag = true :=
    Flags.test_neg_one _ (by cases f.column <;> decide)
  rw [htest, Bool.true_and]
  cases hisDrawn : d.isDrawn f with
  | true => rw [if_pos ⟨DialogConnectionDetails.mem_fields f, rfl⟩]
  | false =>
    rw [if_neg fun hno => Bool.false_ne_true hno.2,
      DialogConnectionDetails.fieldLook_of_not_isDrawn hisDrawn]
    cases f with
    | service s =>
      have hports : d.hasPorts = false := hisDrawn
      simp [DialogConnectionDetails.zeroCells, DialogConnectionDetails.fieldWidth, hports]
    | _ => exact Bool.noConfusion hisDrawn

theorem drawn_looks (htexts : texts.Fits) (h : Drawn texts d) (hcontent : d.content ≠ .none)
    {y x : ℕ} (hy : y < 22) (hx : x < 80) :
    look (d.pad.cells y x) = look ((whole texts d).cells y x) := by
  have hbase := (DialogConnectionDetails.drawTexts_spec
    DialogConnectionDetails.blank_new.toReady h.fits).1
  exact h.filled.look_eq (whole_filled htexts h.fits hcontent)
    (lt_of_lt_of_eq hy hbase.height.symm) (lt_of_lt_of_eq hx hbase.width.symm)

/-- **The dialog shows the connection.** After any run the open dialog looks like one that is drawn
as a whole. Once the screen was updated, it has the data of the connection in each column of which
no flag was dropped, and says so if the connection was removed. -/
theorem run_shows_details (S : StdSort) (inet : InetText) (texts : DetailTexts)
    (events : List Event) (htexts : texts.Fits)
    (hinet : inet.Fits)
    (hevents : ∀ event ∈ events, EventFits texts event) :
    let x := events.foldl (track S inet texts) ({}, 0)
    let s := updateDetails texts x.1
    let dropped := drop x.1 x.2 .updateList
    (x.1.dialog.isOpen = true → ∀ i < 22, ∀ j < 80,
        look (x.1.dialog.pad.cells i j) = look ((whole texts x.1.dialog).cells i j)) ∧
      (s.dialog.isOpen = true →
        (∀ c, s.list.connectionDetail = some c →
          s.dialog.content = .normal ∧ Shows s.list.storage c s.dialog ∧
            ∀ col, col ≠ .proto → dropped.test col.flag = false →
              (s.dialog.member col).seen = (value s.list.storage c col).seen) ∧
        (s.list.connectionDetail = none → s.dialog.content = .removed)) := by
  intro x s dropped
  have h : Tracks inet texts x.1 x.2 := foldl_tracks S htexts hinet events hevents
    (x := ({}, 0)) (init_tracks inet texts)
  obtain ⟨hs, hflags⟩ := updateDetails_spec htexts hinet h
  refine ⟨fun hopen i hi j hj => drawn_looks htexts (h.drawn hopen) (h.content_ne hopen) hi hj,
    fun hopen => ⟨fun c hc => ?_, fun hnone => ?_⟩⟩
  · obtain ⟨hcontent, hshows, hfollows⟩ := hs.shows hopen c hc
    refine ⟨hcontent, hshows, fun col hcol hdropped => ?_⟩
    rcases hfollows col hcol with hpending | hlost | hseen
    · have hzero : Flags.test 0 col.flag = false := Flags.test_zero _
      rw [hflags, hzero] at hpending
      exact Bool.noConfusion hpending
    · exact absurd (hlost.symm.trans hdropped) Bool.noConfusion
    · exact hseen
  · exact (hs.removed hopen hnone).resolve_right fun hnormal => hnormal.2 hflags

end DetailsScreen

end Screen

namespace DetailsScreen

open DialogConnectionDetails (look)

private def shownAddr : Address := .ip4 0x0C00007F#32
private def shownPort : Port := ⟨.tcp, 2600⟩
private def shownConn : Connection := ⟨shownAddr, shownPort, shownAddr, shownPort, rfl, rfl⟩

/-- The dialog is opened for a connection, whose traffic changes then. -/
def shownEvents : List Event :=
  [.list (.setTargetSize 1), .list (.getAddress shownAddr true), .list (.getPort shownPort true),
    .list (.add shownConn {}), .key .enter,
    .list (.change shownConn { traffic := { rxBytes := 5 } } EConnectionUpdateFlags.rxBytes)]

theorem run_shows_details_traffic :
    letI := PadView.library Attr
    let x := shownEvents.foldl (track .insertion .plain .plain) ({}, 0)
    (∀ i < 22, ∀ j < 80,
        look (x.1.dialog.pad.cells i j) = look ((whole .plain x.1.dialog).cells i j)) ∧
      ((updateDetails .plain x.1).dialog.member .rxBytes).seen = .count 5 := by
  let := PadView.library Attr
  have := PadView.library_lawful Attr
  have hevents : ∀ event ∈ shownEvents, EventFits .plain event := by
    simp [shownEvents, EventFits, ConnectionList.OpFits]
  have h := run_shows_details .insertion .plain .plain shownEvents DetailTexts.plain_fits
    InetText.plain_fits hevents
  obtain ⟨x, hx⟩ : ∃ x, shownEvents.foldl (track .insertion .plain .plain) ({}, 0) = x := ⟨_, rfl⟩
  simp only [hx] at h ⊢
  have hopen : x.1.dialog.isOpen = true := by
    rw [← hx]
    decide +kernel
  have hopen' : (updateDetails .plain x.1).dialog.isOpen = true := by
    rw [← hx]
    decide +kernel
  have hshown : (updateDetails .plain x.1).list.connectionDetail = some shownConn := by
    rw [← hx]
    decide +kernel
  have hdropped : (drop x.1 x.2 .updateList).test
      Column.rxBytes.flag = false := by
    rw [← hx]
    decide +kernel
  have hbytes : ((updateDetails .plain x.1).list.storage.connectionData
      shownConn).traffic.rxBytes = 5 := by
    rw [← hx]
    decide +kernel
  obtain ⟨-, -, hseen⟩ := (h.2 hopen').1 shownConn hshown
  refine ⟨h.1 hopen, (hseen .rxBytes (by decide) hdropped).trans ?_⟩
  exact congrArg DialogConnectionDetails.Member.count hbytes

end DetailsScreen

end Conntop
