import OpenChat.Server.Broadcast

/-!
# What the records of a file tell about the memory of the server

`OnBtn_File` hands the whole local array to `send`, whatever it held before.
Two runs over the same file, from different contents of the array, send the
same records exactly when the first record already covers the difference: from
then on the arrays are equal.
-/

namespace OpenChat.Server

open Platform

structure CheckedRow (list : CListCtrl) where
  row : ListRow
  member : row ∈ list
  checked : row.checked = true

namespace CheckedRow

variable {list : CListCtrl}

def socket (client : CheckedRow list) : Socket :=
  tcstoul client.row.socket

end CheckedRow

def targets (list : CListCtrl) (socket : Socket) : Nat :=
  list.countP fun row => row.checked && tcstoul row.socket = socket

theorem CheckedRow.targets_ne_zero {list : CListCtrl}
    (client : CheckedRow list) : targets list client.socket ≠ 0 := by
  have positive : 0 < targets list client.socket := by
    rw [targets, List.countP_pos_iff]
    refine ⟨client.row, client.member, ?_⟩
    simp [client.checked, CheckedRow.socket]
  omega

namespace PCServerDlg

/-- A line goes once to every checked row, always as the same record. -/
theorem sentTo_fileLine_targets (page : CodePage) (list : CListCtrl)
    (socket : Socket) (state : Buffer 512 × Network) (line : FileLine) :
    (fileLine page list state line).2.sentTo socket =
      state.2.sentTo socket ++ List.replicate (targets list socket)
        (fillRecord page line state.1).bytes := by
  rw [fileLine_eq_foldl]
  induction list generalizing state with
  | nil => simp [targets]
  | cons row list induction =>
      rw [List.foldl_cons, induction, targets, targets, List.countP_cons]
      cases checked : row.checked with
      | false => simp [fileBody, checked]
      | true =>
          simp only [fileBody, checked, if_true, fillRecord_idem,
            sentTo_send, Bool.true_and, decide_eq_true_eq,
            List.append_assoc]
          by_cases same : tcstoul row.socket = socket
          · simp [same, List.replicate_succ]
          · simp [same]

/-- The records of a file, each as often as there are rows for it. -/
theorem sentTo_fileLines_targets (page : CodePage) (list : CListCtrl)
    (socket : Socket) (lines : List FileLine)
    (state : Buffer 512 × Network) :
    (lines.foldl (fileLine page list) state).2.sentTo socket =
      state.2.sentTo socket ++
        (records page state.1 lines).flatMap
          (List.replicate (targets list socket)) := by
  induction lines generalizing state with
  | nil => simp [records]
  | cons line lines induction =>
      rw [List.foldl_cons, induction, sentTo_fileLine_targets,
        fileLine_buffer, records, List.flatMap_cons, List.append_assoc]
      by_cases noTarget : targets list socket = 0
      · have nothing : ∀ buffers : List (List Byte),
            buffers.flatMap (List.replicate 0) = [] := by
          intro buffers
          simp
        rw [noTarget, nothing, nothing, List.replicate_zero, List.append_nil]
      · have someChecked : ∃ row ∈ list, row.checked = true := by
          obtain ⟨row, member, shows⟩ :=
            List.countP_pos_iff.mp (Nat.pos_of_ne_zero noTarget)
          rw [Bool.and_eq_true] at shows
          exact ⟨row, member, shows.1⟩
        rw [if_pos someChecked]

/-- The array after the first line decides whether two runs differ. -/
theorem fillRecord_eq_iff (page : CodePage) (line : FileLine)
    (buf buf' : Buffer 512) :
    fillRecord page line buf = fillRecord page line buf' ↔
      ∀ position, (page.written 512 line.text).length ≤ position →
        position < 511 → buf.bytes[position]? = buf'.bytes[position]? := by
  rw [fillRecord_eq, fillRecord_eq, Buffer.overlay_setAt_eq_iff]
  constructor
  · intro agree position behind inside
    exact agree position behind (by omega) (by omega)
  · intro agree position behind inside notLast
    exact agree position behind (by omega)

end PCServerDlg

theorem records_eq_iff (page : CodePage) (line : FileLine)
    (lines : List FileLine) (buf buf' : Buffer 512) :
    records page buf (line :: lines) = records page buf' (line :: lines) ↔
      PCServerDlg.fillRecord page line buf =
        PCServerDlg.fillRecord page line buf' := by
  constructor
  · intro same
    rw [records, records, List.cons.injEq] at same
    exact Buffer.ext_bytes same.1
  · intro same
    rw [records, records, same]

/-- Repeating every item equally often keeps different lists apart. -/
theorem flatMap_replicate_inj {α : Type*} {count : Nat} (some : count ≠ 0)
    {left right : List α} (sameLength : left.length = right.length)
    (same : left.flatMap (List.replicate count) =
      right.flatMap (List.replicate count)) : left = right := by
  induction left generalizing right with
  | nil => exact (List.eq_nil_of_length_eq_zero sameLength.symm).symm
  | cons head tail induction =>
      cases right with
      | nil => simp at sameLength
      | cons head' tail' =>
          rw [List.flatMap_cons, List.flatMap_cons] at same
          obtain ⟨heads, tails⟩ := List.append_inj same (by simp)
          rw [List.replicate_inj] at heads
          rw [heads.2.resolve_left some,
            induction (by simpa using sameLength) tails]

/-- Two runs of `OnBtn_File` over the same file hand the same buffers to `send`
for a checked client exactly if the file is empty, or their arrays agree
between what the conversion of the first line writes and the last byte. -/
theorem file_discloses_nothing_iff (page : CodePage) (dlg : PCServerDlg)
    (client : CheckedRow dlg.mClientList) (lines : List FileLine)
    (buf buf' : Buffer 512) (network : Network) :
    (dlg.onBtnFile page (some lines) buf network).sentTo client.socket =
        (dlg.onBtnFile page (some lines) buf' network).sentTo
          client.socket ↔
      ∀ line ∈ lines.head?, ∀ position,
        (page.written 512 line.text).length ≤ position → position < 511 →
          buf.bytes[position]? = buf'.bytes[position]? := by
  rw [PCServerDlg.onBtnFile, PCServerDlg.onBtnFile,
    PCServerDlg.sentTo_fileLines_targets,
    PCServerDlg.sentTo_fileLines_targets, List.append_cancel_left_eq]
  cases lines with
  | nil => simp [records]
  | cons line lines =>
      have sameRecords : records page buf (line :: lines) =
          records page buf' (line :: lines) ↔
            ∀ position, (page.written 512 line.text).length ≤ position →
              position < 511 → buf.bytes[position]? = buf'.bytes[position]? :=
        (records_eq_iff page line lines buf buf').trans
          (PCServerDlg.fillRecord_eq_iff page line buf buf')
      simp only [List.head?_cons, Option.mem_some_iff, forall_eq']
      rw [← sameRecords]
      constructor
      · intro same
        refine flatMap_replicate_inj client.targets_ne_zero ?_ same
        rw [length_records, length_records]
      · intro same
        rw [same]

def lineX : FileLine :=
  ⟨[120], by decide, by decide⟩

def oneRow : PCServerDlg :=
  { PCServerDlg.create with
    mClientList :=
      [{ port := "5000".toList
         ip := "10.0.0.1".toList
         socket := formatLd 8
         checked := true }] }

def oneRowChecked : CheckedRow oneRow.mClientList where
  row :=
    { port := "5000".toList
      ip := "10.0.0.1".toList
      socket := formatLd 8
      checked := true }
  member := List.mem_singleton.mpr rfl
  checked := rfl

def filled (byte : Byte) : Buffer 512 :=
  ⟨List.replicate 512 byte, List.length_replicate⟩

theorem array_is_disclosed :
    ¬∀ (page : CodePage) (dlg : PCServerDlg)
      (client : CheckedRow dlg.mClientList) (lines : List FileLine)
      (buf buf' : Buffer 512) (network : Network),
        (dlg.onBtnFile page (some lines) buf network).sentTo client.socket =
          (dlg.onBtnFile page (some lines) buf' network).sentTo
            client.socket := by
  intro same
  have buffers := same .ascii oneRow oneRowChecked [lineX] (filled 0)
    (filled 1) { sent := [], answer := fun _ => 512 }
  exact absurd buffers (by decide +kernel)

end OpenChat.Server
