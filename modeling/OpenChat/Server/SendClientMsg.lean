import OpenChat.Server.ServerDlg

/-!
# The broadcast of a message

`SendClientMsg` hands a fixed count of 256 bytes to `send`, whatever the
length of the message, and looks at the result of the last call only.
-/

namespace OpenChat.Server

open Platform

/-- `count` bytes from `strMsg.c_str()`: the string, its terminator, and what
happens to stand behind it in memory. -/
def readCStr (strMsg : List Byte) (beyond : Nat → Byte) (count : Nat) :
    List Byte :=
  (strMsg ++ 0 :: (List.range count).map beyond).take count

def socketError : Int := -1

namespace PCServerDlg

/-- `"发送错误!\r\n"` in the code page of the source. -/
def sendErrorText : List Byte :=
  [183, 162, 203, 205, 180, 237, 206, 243, 33, 13, 10]

/-- One round of the loop of `SendClientMsg`, for the entry `at` returns;
`none` is its exception. -/
def sendRound (bytes : List Byte) (state : Option (Int × Network))
    (client : Option CClientItem) : Option (Int × Network) :=
  state.bind fun (_ret, network) =>
    client.map fun client => network.send client.cSocket bytes

/-- `SendClientMsg`; `client` is `none` for `NULL`. -/
def sendClientMsg (dlg : PCServerDlg) (strMsg : List Byte)
    (beyond : Nat → Byte) (client : Option CClientItem) (network : Network) :
    Option (PCServerDlg × Network) :=
  let bytes := readCStr strMsg beyond 256
  let calls : Option (Int × Network) :=
    match client with
    | none =>
        (List.range dlg.mServer.clientNum).foldl
          (fun state i => sendRound bytes state (dlg.mServer.getClient i))
          (some (0, network))
    | some client => some (network.send client.cSocket bytes)
  calls.map fun (ret, network) =>
    if socketError = ret then (dlg.addInfo sendErrorText, network)
    else (dlg, network)

def recipients (dlg : PCServerDlg) : Option CClientItem → List Socket
  | none => dlg.mServer.mClientVec.map CClientItem.cSocket
  | some client => [client.cSocket]

end PCServerDlg

def Network.Fails (network : Network) (k : Nat) : Prop :=
  socketError = network.answer (network.sent.length + k)

instance (network : Network) (k : Nat) : Decidable (network.Fails k) :=
  inferInstanceAs (Decidable (_ = _))

/-- `send` is called once for each recipient, in order, with bytes that carry
the message, and the error text is added exactly if one of the calls fails. -/
def BroadcastsAs (carries : List Byte → Prop) (dlg : PCServerDlg)
    (strMsg : List Byte) (beyond : Nat → Byte) (client : Option CClientItem)
    (network : Network) : Prop :=
  ∃ later after calls,
    dlg.sendClientMsg strMsg beyond client network = some (later, after) ∧
    after.sent = network.sent ++ calls ∧
    calls.map Prod.fst = dlg.recipients client ∧
    (∀ call ∈ calls, carries call.2) ∧
    ((∃ k < calls.length, network.Fails k) →
      later = dlg.addInfo PCServerDlg.sendErrorText) ∧
    ((∀ k < calls.length, ¬network.Fails k) → later = dlg)

/-- When some call for the recipients fails, the last one does. -/
def LastFails (network : Network) (recipients : List Socket) : Prop :=
  ∀ k < recipients.length, network.Fails k →
    network.Fails (recipients.length - 1)

theorem length_readCStr (strMsg : List Byte) (beyond : Nat → Byte)
    (count : Nat) : (readCStr strMsg beyond count).length = count := by
  rw [readCStr, List.length_take, List.length_append, List.length_cons,
    List.length_map, List.length_range]
  omega

/-- The count takes the string alone only if it is the length of the
string. -/
theorem readCStr_eq_self_iff (strMsg : List Byte) (beyond : Nat → Byte)
    (count : Nat) :
    readCStr strMsg beyond count = strMsg ↔ strMsg.length = count := by
  constructor
  · intro same
    rw [← same, length_readCStr]
  · rintro rfl
    exact List.take_left

theorem readCStr_eq_terminated_iff (strMsg : List Byte)
    (beyond : Nat → Byte) (count : Nat) :
    readCStr strMsg beyond count = strMsg ++ [0] ↔
      strMsg.length + 1 = count := by
  constructor
  · intro same
    have lengths := congrArg List.length same
    rw [length_readCStr, List.length_append] at lengths
    exact lengths.symm
  · rintro rfl
    have split : ∀ rest : List Byte,
        strMsg ++ 0 :: rest = (strMsg ++ [0]) ++ rest := by simp
    rw [readCStr, split]
    exact List.take_left' (by simp)

namespace PCServerDlg

theorem foldl_sendRound (bytes : List Byte) (clients : List CClientItem)
    (ret : Int) (network : Network) :
    clients.foldl (fun state client => sendRound bytes state (some client))
        (some (ret, network)) =
      some
        (if clients = [] then ret
          else network.answer (network.sent.length + (clients.length - 1)),
        { network with
          sent := network.sent ++ clients.map fun client =>
            (client.cSocket, bytes) }) := by
  induction clients generalizing ret network with
  | nil => simp
  | cons client clients induction =>
      have round : sendRound bytes (some (ret, network)) (some client) =
          some (network.send client.cSocket bytes) := rfl
      rw [List.foldl_cons, round, Network.send, induction]
      cases clients with
      | nil => simp
      | cons second clients =>
          have index : network.sent.length + 1 + clients.length =
              network.sent.length + (clients.length + 1) := by omega
          simp [index]

def afterSends (dlg : PCServerDlg) (network : Network)
    (recipients : List Socket) : PCServerDlg :=
  if recipients ≠ [] ∧ network.Fails (recipients.length - 1) then
    dlg.addInfo sendErrorText
  else dlg

theorem sendClientMsg_eq (dlg : PCServerDlg) (strMsg : List Byte)
    (beyond : Nat → Byte) (client : Option CClientItem)
    (network : Network) :
    dlg.sendClientMsg strMsg beyond client network =
      some (dlg.afterSends network (dlg.recipients client),
        { network with
          sent := network.sent ++ (dlg.recipients client).map fun socket =>
            (socket, readCStr strMsg beyond 256) }) := by
  cases client with
  | none =>
      have loop := foldl_range_getElem?
        (sendRound (readCStr strMsg beyond 256)) dlg.mServer.mClientVec
        (some (0, network))
      rw [foldl_sendRound] at loop
      have noError : ¬socketError = 0 := by decide
      rw [sendClientMsg]
      simp only [TcpServer.clientNum, TcpServer.getClient, loop,
        Option.map_some, afterSends, recipients, Network.Fails,
        List.length_map]
      cases dlg.mServer.mClientVec with
      | nil => simp [noError]
      | cons first rest =>
          have nonempty : (first :: rest).map CClientItem.cSocket ≠ [] :=
            List.cons_ne_nil _ _
          have same : (first :: rest ≠ []) := List.cons_ne_nil _ _
          rw [if_neg same, List.map_map]
          by_cases fails : socketError = network.answer
              (network.sent.length + ((first :: rest).length - 1))
          · rw [if_pos fails, if_pos ⟨nonempty, fails⟩]
            rfl
          · rw [if_neg fails, if_neg fun both => fails both.2]
            rfl
  | some client =>
      by_cases fails : socketError = network.answer network.sent.length
      · have both : dlg.recipients (some client) ≠ [] ∧ network.Fails
            ((dlg.recipients (some client)).length - 1) :=
          ⟨List.cons_ne_nil _ _, fails⟩
        rw [afterSends, if_pos both]
        exact congrArg some (if_pos fails)
      · have notBoth : ¬(dlg.recipients (some client) ≠ [] ∧ network.Fails
            ((dlg.recipients (some client)).length - 1)) :=
          fun both => fails both.2
        rw [afterSends, if_neg notBoth]
        exact congrArg some (if_neg fails)

theorem addInfo_ne (dlg : PCServerDlg) (text : List Byte) :
    dlg.addInfo text ≠ dlg := by
  intro same
  have box := congrArg mInfoBox same
  simp [addInfo] at box

theorem afterSends_eq_addInfo_iff (dlg : PCServerDlg) (network : Network)
    (recipients : List Socket) :
    dlg.afterSends network recipients = dlg.addInfo sendErrorText ↔
      recipients ≠ [] ∧ network.Fails (recipients.length - 1) := by
  rw [afterSends]
  split
  · rename_i reported
    exact iff_of_true rfl reported
  · rename_i unreported
    exact iff_of_false (dlg.addInfo_ne sendErrorText).symm unreported

end PCServerDlg

open PCServerDlg

theorem broadcastsAs_iff (carries : List Byte → Prop) (dlg : PCServerDlg)
    (strMsg : List Byte) (beyond : Nat → Byte) (client : Option CClientItem)
    (network : Network) :
    BroadcastsAs carries dlg strMsg beyond client network ↔
      (dlg.recipients client = [] ∨
        carries (readCStr strMsg beyond 256)) ∧
      LastFails network (dlg.recipients client) := by
  constructor
  · rintro ⟨later, after, calls, returned, sent, sockets, carried, reported,
      _⟩
    rw [sendClientMsg_eq] at returned
    obtain ⟨rfl, rfl⟩ := Prod.mk.inj (Option.some.inj returned)
    obtain rfl := List.append_cancel_left sent
    rw [List.length_map] at reported
    constructor
    · cases recipients : dlg.recipients client with
      | nil => exact .inl rfl
      | cons socket others =>
          rw [recipients] at carried
          exact .inr (carried _ (.head _))
    · intro k inside fails
      exact ((dlg.afterSends_eq_addInfo_iff network _).mp
        (reported ⟨k, inside, fails⟩)).2
  · rintro ⟨carried, lastFails⟩
    refine ⟨_, _, _, sendClientMsg_eq dlg strMsg beyond client network, rfl,
      ?_, ?_, ?_, ?_⟩
    · rw [List.map_map]
      exact List.map_id _
    · intro call member
      obtain ⟨socket, isRecipient, rfl⟩ := List.mem_map.mp member
      exact carried.resolve_left (List.ne_nil_of_mem isRecipient)
    · rintro ⟨k, inside, fails⟩
      rw [List.length_map] at inside
      exact (dlg.afterSends_eq_addInfo_iff network _).mpr
        ⟨List.ne_nil_of_length_pos (by omega), lastFails k inside fails⟩
    · intro noneFails
      rw [List.length_map] at noneFails
      rw [afterSends, if_neg]
      rintro ⟨nonempty, fails⟩
      have positive := List.length_pos_of_ne_nil nonempty
      exact noneFails _ (by omega) fails

/-- `SendClientMsg` sends each recipient exactly the message if it has 256
bytes, and the message with at most its terminator if it has 255 or 256; it
reports the failures if the last call fails whenever one does. -/
theorem sendClientMsg_broadcasts_iff (dlg : PCServerDlg)
    (strMsg : List Byte) (beyond : Nat → Byte) (client : Option CClientItem)
    (network : Network) :
    (BroadcastsAs (fun bytes => bytes = strMsg) dlg strMsg beyond client
        network ↔
      (dlg.recipients client = [] ∨ strMsg.length = 256) ∧
        LastFails network (dlg.recipients client)) ∧
    (BroadcastsAs (fun bytes => bytes = strMsg ∨ bytes = strMsg ++ [0]) dlg
        strMsg beyond client network ↔
      (dlg.recipients client = [] ∨ strMsg.length = 256 ∨
          strMsg.length = 255) ∧
        LastFails network (dlg.recipients client)) := by
  constructor
  · rw [broadcastsAs_iff, readCStr_eq_self_iff]
  · have terminated : strMsg.length + 1 = 256 ↔ strMsg.length = 255 := by
      omega
    rw [broadcastsAs_iff, readCStr_eq_self_iff, readCStr_eq_terminated_iff,
      terminated]

theorem short_message_reads_on :
    ¬∀ (dlg : PCServerDlg) (strMsg : List Byte) (beyond : Nat → Byte)
      (client : Option CClientItem) (network : Network), 0 ∉ strMsg →
        BroadcastsAs (fun bytes => bytes = strMsg ∨ bytes = strMsg ++ [0])
          dlg strMsg beyond client network := by
  intro broadcasts
  have sent := (broadcastsAs_iff _ PCServerDlg.create [104, 105]
    (fun _ => 1)
    (some { cAddr := "10.0.0.1".toList, cPort := 5000, cSocket := 8 })
    { sent := [], answer := fun _ => 256 }).mp
      (broadcasts _ _ _ _ _ (by decide))
  rcases sent.1 with none | exact | terminated
  · cases none
  · have same := congrArg List.length exact
    rw [length_readCStr] at same
    exact absurd same (by decide)
  · have same := congrArg List.length terminated
    rw [length_readCStr] at same
    exact absurd same (by decide)

end OpenChat.Server
