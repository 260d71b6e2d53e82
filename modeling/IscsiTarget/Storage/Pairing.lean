import IscsiTarget.Model.NbdBackend

/-!
# Requests and replies of the NBD backend

A reply header carries nothing that tells whose it is, so `invoke_nbd` works only while a
thread has the connection to itself: between the step with which it enters (it connects, or
sends a request header) and its return, no other thread may enter. Nothing in the source
sees to it; the locks on block ranges do not.

`Exclusive` is that condition on a step. Under it the bytes under way are known at every
moment (`StageOk`): nothing, or what belongs to the one exchange that is going on. That is
what every step preserves (`Orderly`, `orderly_step`), and from it

* every reply header a thread has read answers its own request (`RepliesPaired`);
* what a successful read has put into its buffer is what the server stores (`ReadsFilled`).
-/

namespace IscsiTarget

open LockedSections

/-! ### Numbers on the wire -/

theorem beNat_be32 {v : ℕ} (h : v < 2 ^ 32) : beNat (be32 v) = v := by
  simp only [beNat, be32, byteAt, List.foldl_cons, List.foldl_nil, UInt8.toNat_ofNat']
  omega

theorem beNat_be64 {v : ℕ} (h : v < 2 ^ 64) : beNat (be64 v) = v := by
  simp only [beNat, be64, be32, byteAt, List.cons_append, List.nil_append, List.foldl_cons,
    List.foldl_nil, UInt8.toNat_ofNat']
  omega

@[simp] theorem length_be32 (v : ℕ) : (be32 v).length = 4 := rfl

@[simp] theorem length_be64 (v : ℕ) : (be64 v).length = 8 := rfl

/-- The fields fit into a request header, so that the server takes the request
for what it is. -/
structure NbdRequest.Valid (r : NbdRequest) : Prop where
  type : r.type < 2 ^ 32
  handle : r.handle < 2 ^ 64
  offset : r.offset < 2 ^ 64
  length : r.length < 2 ^ 32

@[simp] theorem NbdRequest.length_encode (r : NbdRequest) : r.encode.length = 28 := rfl

/-- **The server reads the request that was sent.** -/
theorem NbdRequest.decode_encode {r : NbdRequest} (h : r.Valid) :
    NbdRequest.decode r.encode = some r := by
  have h_magic : r.encode.take 4 = be32 nbdRequestMagic := rfl
  have h_type : (r.encode.drop 4).take 4 = be32 r.type := rfl
  have h_handle : (r.encode.drop 8).take 8 = be64 r.handle := rfl
  have h_offset : (r.encode.drop 16).take 8 = be64 r.offset := rfl
  have h_length : (r.encode.drop 24).take 4 = be32 r.length := rfl
  unfold NbdRequest.decode
  rw [h_magic, h_type, h_handle, h_offset, h_length, beNat_be32 h.type, beNat_be64 h.handle,
    beNat_be64 h.offset, beNat_be32 h.length, beNat_be32 (by decide), if_pos ⟨rfl, rfl⟩]

/-! ### Numbered bytes -/

@[simp] theorem length_stamp (id : ℕ) (bytes : Bytes) : (stamp id bytes).length = bytes.length :=
  List.length_map _

@[simp] theorem map_fst_stamp (id : ℕ) (bytes : Bytes) : (stamp id bytes).map Prod.fst = bytes := by
  simp [stamp, Function.comp_def]

theorem eq_of_mem_stamp {id i : ℕ} {bytes : Bytes}
    (h : i ∈ (stamp id bytes).map Prod.snd) : i = id := by
  obtain ⟨⟨b, i'⟩, h_mem, rfl⟩ := List.mem_map.mp h
  obtain ⟨_, -, h_eq⟩ := List.mem_map.mp h_mem
  exact (Prod.mk.inj h_eq).2.symm

theorem take_stamp (id n : ℕ) (bytes : Bytes) : (stamp id bytes).take n = stamp id (bytes.take n) :=
  List.map_take.symm

theorem drop_stamp (id n : ℕ) (bytes : Bytes) : (stamp id bytes).drop n = stamp id (bytes.drop n) :=
  List.map_drop.symm

theorem stamp_append (id : ℕ) (bytes bytes' : Bytes) :
    stamp id (bytes ++ bytes') = stamp id bytes ++ stamp id bytes' := List.map_append

/-! ### Replies -/

namespace NbdRequest

variable (r : NbdRequest) (error : UInt32) (contents : Medium UInt8)

/-- The data behind a reply header. -/
def replyData : Bytes :=
  if r.type = nbdCmdRead ∧ error = 0 then contents.slice r.offset r.length else []

/-- The first 16 bytes of a reply. -/
def replyHeader : Bytes := be32 nbdReplyMagic ++ be32 error.toNat ++ be64 r.handle

theorem take_reply : (r.reply error contents).take 16 = r.replyHeader error := rfl

theorem drop_reply : (r.reply error contents).drop 16 = r.replyData error contents := rfl

theorem magic_reply : beNat ((r.replyHeader error).take 4) = nbdReplyMagic :=
  beNat_be32 (by decide)

theorem error_reply : beNat (((r.replyHeader error).drop 4).take 4) = error.toNat :=
  beNat_be32 error.toNat_lt

theorem length_reply : 16 ≤ (r.reply error contents).length := by
  have h : r.reply error contents = r.replyHeader error ++ r.replyData error contents := rfl
  rw [h, List.length_append]
  exact Nat.le_add_right _ _

end NbdRequest

/-! ### Sections -/

namespace NbdSection

/-- The block range of a function, which decides on the locks it takes. A sync
has none. -/
def range : NbdSection → UInt64 × UInt32
  | sync => (0, 0)
  | write blockNr nBlocks _ => (blockNr, nBlocks)
  | trim blockNr nBlocks => (blockNr, nBlocks)
  | read blockNr nBlocks _ => (blockNr, nBlocks)
  | cmpwrite blockNr nBlocks _ _ => (blockNr, nBlocks)

/-- What the function expects of its arguments: the range lies below the largest
offset, and the data is all there. The length of a read fits into the 32 bits
that `invoke_nbd` has for it. -/
def Fits (sec : NbdSection) : Prop :=
  (sec.range.1.toNat + sec.range.2.toNat) * nbdBlockSize < 2 ^ 64 ∧
    match sec with
    | write _ nBlocks data => nBlocks.toNat * nbdBlockSize ≤ data.length
    | cmpwrite _ nBlocks dataWrite _ => nBlocks.toNat * nbdBlockSize ≤ dataWrite.length
    | read _ nBlocks _ => nBlocks.toNat * nbdBlockSize < 2 ^ 32
    | _ => True

/-- The data behind the header of the `i`-th request. -/
def sent (sec : NbdSection) (i : ℕ) : Bytes :=
  if (sec.request i).type = nbdCmdWrite then sec.payload.take (sec.request i).length else []

theorem nBytes_le (nBlocks : UInt32) : nBytes nBlocks ≤ nBlocks.toNat * nbdBlockSize :=
  Nat.mod_le _ _

theorem offset_eq {blockNr : UInt64} (h : blockNr.toNat * nbdBlockSize < 2 ^ 64) :
    offset blockNr = blockNr.toNat * nbdBlockSize := by
  have h_bs : (UInt64.ofNat nbdBlockSize).toNat = nbdBlockSize := rfl
  rw [offset, UInt64.toNat_mul, h_bs]
  exact Nat.mod_eq_of_lt h

theorem Fits.offset_eq {sec : NbdSection} (h : sec.Fits) :
    offset sec.range.1 = sec.range.1.toNat * nbdBlockSize :=
  NbdSection.offset_eq (lt_of_le_of_lt (Nat.mul_le_mul_right _ (Nat.le_add_right _ _)) h.1)

theorem request_valid (sec : NbdSection) (i : ℕ) : (sec.request i).Valid := by
  have h_valid (type : ℕ) (blockNr : UInt64) {length : ℕ} (ht : type < 2 ^ 32)
      (hlen : length < 2 ^ 32) :
      NbdRequest.Valid { type := type, offset := offset blockNr, length := length } :=
    ⟨ht, by norm_num, UInt64.toNat_lt _, hlen⟩
  have h_len (nBlocks : UInt32) : nBytes nBlocks < 2 ^ 32 := Nat.mod_lt _ (by norm_num)
  cases sec with
  | sync => exact h_valid nbdCmdFlush 0 (by decide) (by norm_num)
  | write blockNr nBlocks data => exact h_valid nbdCmdWrite blockNr (by decide) (h_len _)
  | trim blockNr nBlocks => exact h_valid nbdCmdTrim blockNr (by decide) (h_len _)
  | read blockNr nBlocks buffer => exact h_valid nbdCmdRead blockNr (by decide) (h_len _)
  | cmpwrite blockNr nBlocks dataWrite dataCompare =>
    -- `cmpwrite` reads block by block, and then writes once
    by_cases hi : i < nBlocks.toNat
    · rw [request, if_pos hi]
      exact h_valid nbdCmdRead _ (by decide) (by decide)
    · rw [request, if_neg hi]
      exact h_valid nbdCmdWrite blockNr (by decide) (h_len _)

/-- The payload is as long as its header says. Only a write has one, and its
length is a number of 32 bits in both places. -/
theorem length_sent {sec : NbdSection} (h : sec.Fits) (i : ℕ) :
    (sec.sent i).length = (sec.request i).payloadLength := by
  unfold sent NbdRequest.payloadLength
  by_cases hw : (sec.request i).type = nbdCmdWrite
  swap
  · rw [if_neg hw, if_neg hw]
    rfl
  rw [if_pos hw, if_pos hw, List.length_take]
  refine min_eq_left ?_
  -- only `write` and the last request of `cmpwrite` have a payload
  cases sec with
  | sync => exact absurd hw (by simp [request, nbdCmdFlush, nbdCmdWrite])
  | trim blockNr nBlocks => exact absurd hw (by simp [request, nbdCmdTrim, nbdCmdWrite])
  | read blockNr nBlocks buffer => exact absurd hw (by simp [request, nbdCmdRead, nbdCmdWrite])
  | write blockNr nBlocks data => exact (nBytes_le nBlocks).trans h.2
  | cmpwrite blockNr nBlocks dataWrite dataCompare =>
    by_cases hi : i < nBlocks.toNat
    · rw [request, if_pos hi] at hw
      exact absurd hw (by simp [nbdCmdRead, nbdCmdWrite])
    · rw [request, if_neg hi]
      exact (nBytes_le nBlocks).trans h.2

/-- **A request stays inside the range of its function.** So what the server
does to its contents is done to blocks that the function was called for, which
is what makes ranges of different threads independent. -/
theorem request_inside {sec : NbdSection} (h : sec.Fits) (i : ℕ) :
    sec.range.1.toNat * nbdBlockSize ≤ (sec.request i).offset ∧
      (sec.request i).offset + (sec.request i).length ≤
        (sec.range.1.toNat + sec.range.2.toNat) * nbdBlockSize := by
  -- every request but the reads of `cmpwrite` takes the whole range
  have h_whole : sec.range.1.toNat * nbdBlockSize ≤ offset sec.range.1 ∧
      offset sec.range.1 + nBytes sec.range.2 ≤
        (sec.range.1.toNat + sec.range.2.toNat) * nbdBlockSize := by
    rw [h.offset_eq, Nat.add_mul]
    exact ⟨le_rfl, Nat.add_le_add_left (nBytes_le _) _⟩
  cases sec with
  | sync => exact ⟨Nat.le_refl 0, Nat.le_refl 0⟩
  | write blockNr nBlocks data => exact h_whole
  | trim blockNr nBlocks => exact h_whole
  | read blockNr nBlocks buffer => exact h_whole
  | cmpwrite blockNr nBlocks dataWrite dataCompare =>
    by_cases hi : i < nBlocks.toNat
    swap
    · rw [request, if_neg hi]
      exact h_whole
    -- one block of the range
    have h_end : (blockNr.toNat + nBlocks.toNat) * nbdBlockSize < 2 ^ 64 := h.1
    have h_nr : (blockNr + UInt64.ofNat i).toNat = blockNr.toNat + i := by
      rw [UInt64.toNat_add, UInt64.toNat_ofNat']
      unfold nbdBlockSize at h_end
      omega
    have h_off : offset (blockNr + UInt64.ofNat i) = (blockNr.toNat + i) * nbdBlockSize := by
      rw [NbdSection.offset_eq, h_nr]
      rw [h_nr]
      exact lt_of_le_of_lt (Nat.mul_le_mul_right _ (by omega)) h_end
    rw [request, if_pos hi]
    change blockNr.toNat * nbdBlockSize ≤ offset (blockNr + UInt64.ofNat i) ∧
      offset (blockNr + UInt64.ofNat i) + nbdBlockSize ≤
        (blockNr.toNat + nBlocks.toNat) * nbdBlockSize
    rw [h_off, ← Nat.succ_mul]
    exact ⟨Nat.mul_le_mul_right _ (Nat.le_add_right _ _), Nat.mul_le_mul_right _ (by omega)⟩

end NbdSection

/-! ### One thread alone on the connection -/

/-- Between entering and returning. -/
def NbdWork.Inside : NbdWork → Prop
  | .invoke _ _ .start => False
  | .invoke _ _ _ => True
  | _ => False

instance : DecidablePred NbdWork.Inside := fun w => by
  unfold NbdWork.Inside
  split <;> infer_instance

/-- Nothing is under way. -/
def NbdShared.Calm (s : NbdShared) : Prop := s.conn = none ∨ s.conn = some {}

/-- What is under way while request `id` is going on: the request, as far as it
has been sent, or the reply. -/
inductive Exchange (r : NbdRequest) (id : ℕ) (contents : Medium UInt8) (sent : Bytes) :
    Wire → Prop
  | unread : Exchange r id contents sent { up := stamp id (r.encode ++ sent) }
  | answered (error : UInt32) (hsent : sent.length = r.payloadLength) :
    Exchange r id contents sent { down := stamp id (r.reply error contents) }

/-- The buffer of a read request has what the server stores. -/
def Filled (r : NbdRequest) (buffer : Bytes) (contents : Medium UInt8) : Prop :=
  r.type = nbdCmdRead → buffer = contents.slice r.offset r.length

/-- What is under way, by the stage of the thread that is inside. Between
`headerSent` and `waiting` it is the request or its reply, then what is left of
the reply; at the end nothing is left, and a read has its data. -/
def StageOk (sec : NbdSection) (i : ℕ) (buffer : Bytes) (s : NbdShared) : NbdStage → Prop
  | .start => True
  | .headerSent id => (sec.request i).type = nbdCmdWrite ∧
      ∃ wire, s.conn = some wire ∧ Exchange (sec.request i) id s.contents [] wire
  | .waiting id =>
      ∃ wire, s.conn = some wire ∧ Exchange (sec.request i) id s.contents (sec.sent i) wire
  | .replied id => s.conn = some
      { down := stamp id (s.contents.slice (sec.request i).offset (sec.request i).length) }
  | .check => s.conn = none ∨
      (s.conn = some {} ∧ Filled (sec.request i) buffer s.contents)
  | .leaving => s.conn = some {} ∧ Filled (sec.request i) buffer s.contents

/-- A thread at work; when a read has worked, its buffer has what the server
stores. -/
def WorkOk (sec : NbdSection) (s : NbdShared) : NbdWork → Prop
  | .invoke i buffer stage => StageOk sec i buffer s stage
  | .done true buffer => Filled (sec.request 0) buffer s.contents
  | _ => True

/-- Every reply header was read by the thread whose request it answers. -/
def NbdShared.Paired (s : NbdShared) : Prop := ∀ p ∈ s.consumed, ∀ id ∈ p.2, id = p.1

/-- What a step leaves behind: the connection is in order, and calm unless the
thread is inside; the server's contents are the same. -/
structure LeavesOrder (sec : NbdSection) (s : NbdShared) (w' : NbdWork) (s' : NbdShared) :
    Prop where
  work : WorkOk sec s' w'
  calm : ¬ w'.Inside → s'.Calm
  paired : s'.Paired
  contents : s'.contents = s.contents

/-- A call of `invoke_nbd` that returns. The loop of the caller goes on with
another request, or the work is done. -/
theorem leavesOrder_returned {sec : NbdSection} {i : ℕ} {rc : Bool} {buffer : Bytes}
    {s s' : NbdShared} (hcalm : s'.Calm) (hpaired : s'.Paired)
    (hcontents : s'.contents = s.contents)
    (hfilled : rc = true → Filled (sec.request i) buffer s'.contents) :
    LeavesOrder sec s (sec.returned i rc buffer) s' := by
  refine ⟨?_, fun _ => hcalm, hpaired, hcontents⟩
  -- `cmpwrite` goes on to its next request, the others return
  cases sec with
  | cmpwrite blockNr nBlocks dataWrite dataCompare =>
    unfold NbdSection.returned
    dsimp only
    split_ifs <;> trivial
  | _ =>
    cases rc with
    | false => trivial
    | true => exact hfilled rfl

/-- Closing the connection. -/
theorem leavesOrder_close {sec : NbdSection} {i : ℕ} {buffer : Bytes} {s : NbdShared}
    (hpaired : s.Paired) : LeavesOrder sec s (.invoke i buffer .check) s.close :=
  ⟨.inl rfl, fun h => absurd trivial h, hpaired, rfl⟩

section Act

variable {l : NbdLabel} {sec : NbdSection} {i : ℕ} {buffer : Bytes} {w' : NbdWork}
  {s s' : NbdShared}

/-- Entering: nothing may be under way. The header is sent with a number of its
own, by which its reply will be known. -/
theorem act_start (h : nbdAct l sec (.invoke i buffer .start) s = some (w', s')) (hcalm : s.Calm)
    (hpaired : s.Paired) : LeavesOrder sec s w' s' := by
  rcases hcalm with hc | hc
  · -- the thread has to connect first
    cases l with
    | ok =>
      simp only [nbdAct, hc, Option.some.injEq, Prod.mk.injEq] at h
      obtain ⟨rfl, rfl⟩ := h
      exact ⟨trivial, fun _ => .inr rfl, hpaired, rfl⟩
    | fail moved =>
      simp only [nbdAct, hc, Option.some.injEq, Prod.mk.injEq] at h
      obtain ⟨rfl, rfl⟩ := h
      exact ⟨trivial, fun _ => .inl hc, hpaired, rfl⟩
    | serve error cleared => simp [nbdAct] at h
  · cases l with
    | ok =>
      simp only [nbdAct, hc, Option.some.injEq, Prod.mk.injEq] at h
      obtain ⟨rfl, rfl⟩ := h
      -- the header of the request is all there is on the connection
      have h_unread := @Exchange.unread (sec.request i) s.nextId s.contents []
      rw [List.append_nil] at h_unread
      by_cases hw : (sec.request i).type = nbdCmdWrite
      · rw [if_pos hw]
        exact ⟨⟨hw, _, rfl, h_unread⟩, fun h => absurd trivial h, hpaired, rfl⟩
      · rw [if_neg hw]
        refine ⟨⟨_, rfl, ?_⟩, fun h => absurd trivial h, hpaired, rfl⟩
        rw [NbdSection.sent, if_neg hw]
        exact h_unread
    | fail moved =>
      simp only [nbdAct, hc, Option.some.injEq, Prod.mk.injEq] at h
      obtain ⟨rfl, rfl⟩ := h
      -- a header that was sent in part only is lost with the connection
      exact leavesOrder_close hpaired
    | serve error cleared => simp [nbdAct] at h

/-- The payload of a write. With it the request is complete, and the server may
answer. -/
theorem act_headerSent {id : ℕ}
    (h : nbdAct l sec (.invoke i buffer (.headerSent id)) s = some (w', s')) (hfits : sec.Fits)
    (hok : StageOk sec i buffer s (.headerSent id)) (hpaired : s.Paired) :
    LeavesOrder sec s w' s' := by
  obtain ⟨hw, wire, hc, hex⟩ := hok
  have h_sent : sec.payload.take (sec.request i).length = sec.sent i := by
    rw [NbdSection.sent, if_pos hw]
  cases l with
  | ok =>
    simp only [nbdAct, hc, Option.some.injEq, Prod.mk.injEq] at h
    obtain ⟨rfl, rfl⟩ := h
    refine ⟨⟨_, rfl, ?_⟩, fun h => absurd trivial h, hpaired, rfl⟩
    rw [h_sent]
    cases hex with
    -- the header, with the payload behind it
    | unread =>
      rw [List.append_nil, ← stamp_append]
      exact .unread
    | answered error hsent =>
      -- the header alone was a whole request: there is no payload
      have h_len := NbdSection.length_sent hfits i
      rw [← hsent, List.length_nil] at h_len
      rw [List.eq_nil_of_length_eq_zero h_len]
      exact .answered error hsent
  | fail moved =>
    simp only [nbdAct, Option.some.injEq, Prod.mk.injEq] at h
    obtain ⟨rfl, rfl⟩ := h
    exact leavesOrder_close hpaired
  | serve error cleared => simp [nbdAct] at h

/-- The reply header: what is on the way is the reply to this request, since no
other has been sent since it was. An error in it ends the call. -/
theorem act_waiting {id : ℕ}
    (h : nbdAct l sec (.invoke i buffer (.waiting id)) s = some (w', s'))
    (hok : StageOk sec i buffer s (.waiting id)) (hpaired : s.Paired) :
    LeavesOrder sec s w' s' := by
  obtain ⟨wire, hc, hex⟩ := hok
  cases l with
  | fail moved =>
    simp only [nbdAct, Option.some.injEq, Prod.mk.injEq] at h
    obtain ⟨rfl, rfl⟩ := h
    exact leavesOrder_close hpaired
  | serve error cleared => simp [nbdAct] at h
  | ok =>
    cases hex with
    -- the server has not answered yet, so there is nothing to read
    | unread => simp [nbdAct, hc] at h
    | answered error hsent =>
      -- the request was answered, and its reply is all there is on the way
      set r := sec.request i with hr
      have h_len := r.length_reply error s.contents
      simp only [nbdAct, hc, ← hr, length_stamp, if_pos h_len, take_stamp, drop_stamp,
        map_fst_stamp, NbdRequest.take_reply, NbdRequest.drop_reply, NbdRequest.magic_reply,
        NbdRequest.error_reply, ne_eq, not_true_eq_false, if_false] at h
      -- the 16 bytes that are read all carry the number of this request
      have h_paired : ∀ p ∈ s.consumed ++ [(id, (stamp id (r.replyHeader error)).map Prod.snd)],
          ∀ j ∈ p.2, j = p.1 := by
        intro p hp
        rcases List.mem_append.mp hp with hp | hp
        · exact hpaired p hp
        · obtain rfl := List.mem_singleton.mp hp
          exact fun j hj => eq_of_mem_stamp hj
      by_cases herror : error.toNat = 0
      · have h_zero : error = 0 := UInt32.toNat_inj.mp herror
        subst h_zero
        by_cases hread : r.type = nbdCmdRead
        · -- behind the header of a read the data is still on the way
          simp only [UInt32.toNat_zero, not_true_eq_false, if_false, if_pos hread,
            Option.some.injEq, Prod.mk.injEq] at h
          obtain ⟨rfl, rfl⟩ := h
          refine ⟨?_, fun h => absurd trivial h, h_paired, rfl⟩
          have h_data : r.replyData 0 s.contents = s.contents.slice r.offset r.length :=
            if_pos ⟨hread, rfl⟩
          rw [h_data]
          exact rfl
        · -- and behind that of any other request there is nothing
          simp only [UInt32.toNat_zero, not_true_eq_false, if_false, if_neg hread,
            Option.some.injEq, Prod.mk.injEq] at h
          obtain ⟨rfl, rfl⟩ := h
          refine ⟨.inr ⟨?_, fun h => absurd h hread⟩, fun h => absurd trivial h, h_paired, rfl⟩
          have h_data : r.replyData 0 s.contents = [] := if_neg fun h => hread h.1
          rw [h_data]
          rfl
      · -- the server indicates an error: the call returns, and no data follows
        simp only [herror, not_false_eq_true, if_true, Option.some.injEq, Prod.mk.injEq] at h
        obtain ⟨rfl, rfl⟩ := h
        have h_data : r.replyData error s.contents = [] :=
          if_neg fun h => herror (by rw [h.2]; rfl)
        rw [h_data]
        exact leavesOrder_returned (.inr rfl) h_paired rfl fun h => nomatch h

/-- The data of a read. It is as long as the request has asked for, and goes to
the buffer as a whole. -/
theorem act_replied {id : ℕ}
    (h : nbdAct l sec (.invoke i buffer (.replied id)) s = some (w', s'))
    (hok : StageOk sec i buffer s (.replied id)) (hpaired : s.Paired) :
    LeavesOrder sec s w' s' := by
  cases l with
  | fail moved =>
    simp only [nbdAct, Option.some.injEq, Prod.mk.injEq] at h
    obtain ⟨rfl, rfl⟩ := h
    exact leavesOrder_close hpaired
  | serve error cleared => simp [nbdAct] at h
  | ok =>
    have hc : s.conn = some _ := hok
    -- all the bytes that were asked for arrive, and they are stamped with this request
    simp only [nbdAct, hc, length_stamp, Medium.length_slice, le_refl, if_true, take_stamp,
      drop_stamp, map_fst_stamp, Option.some.injEq, Prod.mk.injEq] at h
    obtain ⟨rfl, rfl⟩ := h
    refine ⟨.inr ⟨?_, fun _ => ?_⟩, fun h => absurd trivial h, hpaired, rfl⟩
    · rw [List.drop_of_length_le (Medium.length_slice _ _ _).le]
      rfl
    · exact List.take_of_length_le (Medium.length_slice _ _ _).le

/-- The condition of the loop, and the end of the function. With an error, or
without a connection, it does not say that it worked. -/
theorem act_check (h : nbdAct l sec (.invoke i buffer .check) s = some (w', s'))
    (hok : StageOk sec i buffer s .check) (hpaired : s.Paired) : LeavesOrder sec s w' s' := by
  cases l with
  | fail moved => simp [nbdAct] at h
  | serve error cleared => simp [nbdAct] at h
  | ok =>
    rcases hok with hc | ⟨hc, hfilled⟩
    · -- the connection was closed, so the loop goes round again
      simp only [nbdAct, hc, Option.some.injEq, Prod.mk.injEq] at h
      obtain ⟨rfl, rfl⟩ := h
      exact ⟨trivial, fun _ => .inl hc, hpaired, rfl⟩
    · -- the exchange is over, and the thread is still inside until it returns
      simp only [nbdAct, hc, Option.some.injEq, Prod.mk.injEq] at h
      obtain ⟨rfl, rfl⟩ := h
      exact ⟨⟨hc, hfilled⟩, fun h => absurd trivial h, hpaired, rfl⟩

theorem act_leaving (h : nbdAct l sec (.invoke i buffer .leaving) s = some (w', s'))
    (hok : StageOk sec i buffer s .leaving) (hpaired : s.Paired) : LeavesOrder sec s w' s' := by
  obtain ⟨hc, hfilled⟩ := hok
  cases l with
  | fail moved => simp [nbdAct] at h
  | serve error cleared => simp [nbdAct] at h
  | ok =>
    simp only [nbdAct, Option.some.injEq, Prod.mk.injEq] at h
    obtain ⟨rfl, rfl⟩ := h
    exact leavesOrder_returned (.inr hc) hpaired rfl fun _ => hfilled

/-- **A step of the thread that is inside, or that enters while nobody is**,
leaves the connection in order: one lemma for each stage of `invoke_nbd`, put
together. -/
theorem leavesOrder_act {w : NbdWork} (h : nbdAct l sec w s = some (w', s')) (hfits : sec.Fits)
    (hok : WorkOk sec s w) (hcalm : ¬ w.Inside → s.Calm) (hpaired : s.Paired) :
    LeavesOrder sec s w' s' := by
  cases w with
  | done ok buffer => exact nomatch h
  | compared result => exact nomatch h
  | invoke i buffer stage =>
    cases stage with
    | start => exact act_start h (hcalm id) hpaired
    | headerSent id => exact act_headerSent h hfits hok hpaired
    | waiting id => exact act_waiting h hok hpaired
    | replied id => exact act_replied h hok hpaired
    | check => exact act_check h hok hpaired
    | leaving => exact act_leaving h hok hpaired

end Act

/-! ### The server -/

section Serve

variable {l : NbdLabel} {s s' : NbdShared}

theorem serve_of_up_nil {wire : Wire} (hc : s.conn = some wire) (hup : wire.up = []) :
    nbdServe l s = none := by
  cases l with
  | serve error cleared =>
    simp only [nbdServe, hc, hup, List.take_nil, List.map_nil]
    exact rfl
  | _ => simp [nbdServe]

/-- Where nothing is under way the server has nothing to do. -/
theorem serve_of_calm (hcalm : s.Calm) : nbdServe l s = none := by
  rcases hcalm with hc | hc
  · simp [nbdServe, hc]
  · exact serve_of_up_nil hc rfl

/-- What the server has when it has executed a request. With an error it has
done nothing, and whether a trim leaves zeros is up to it. -/
def NbdRequest.applied (r : NbdRequest) (error : UInt32) (cleared : Bool) (payload : Bytes)
    (contents : Medium UInt8) : Medium UInt8 :=
  if error ≠ 0 then contents
  else if r.type = nbdCmdWrite then contents.store r.offset payload
  else if r.type = nbdCmdTrim ∧ cleared then contents.clear r.offset r.length
  else contents

/-- What a request changes. -/
theorem applied_frame {r : NbdRequest} {contents : Medium UInt8} {payload : Bytes}
    (hpayload : payload.length ≤ r.length) {error : UInt32} {cleared : Bool} {x : ℕ}
    (hx : x < r.offset ∨ r.offset + r.length ≤ x) :
    r.applied error cleared payload contents x = contents x := by
  unfold NbdRequest.applied
  split_ifs with herror hw ht
  · rfl
  · refine Medium.store_apply_of_notMem ?_
    omega
  · exact Medium.clear_apply_of_notMem hx
  · rfl

/-- **The server's step** when one request is under way: it answers it, once it
is complete. The request is read off the bytes of the wire. -/
theorem serve_unread {r : NbdRequest} {id : ℕ} {sent : Bytes} {error : UInt32} {cleared : Bool}
    (hc : s.conn = some { up := stamp id (r.encode ++ sent) }) (hvalid : r.Valid)
    (hsent : sent.length ≤ r.payloadLength) :
    nbdServe (.serve error cleared) s =
      if sent.length < r.payloadLength then none
      else some { s with
        contents := r.applied error cleared sent s.contents
        conn := some
          { down := stamp id (r.reply error (r.applied error cleared sent s.contents)) } } := by
  have h_header : (r.encode ++ sent).take 28 = r.encode := List.take_left' r.length_encode
  have h_rest : (r.encode ++ sent).drop 28 = sent := List.drop_left' r.length_encode
  have h_first : ((stamp id (r.encode ++ sent)).head?.map Prod.snd).getD 0 = id := rfl
  simp only [nbdServe, hc, take_stamp, map_fst_stamp, h_header, NbdRequest.decode_encode hvalid,
    length_stamp, List.length_append, NbdRequest.length_encode, h_first, drop_stamp, h_rest,
    List.nil_append, Nat.add_lt_add_iff_left]
  split
  · -- the payload has not arrived as a whole
    rfl
  · next h_complete =>
    -- it has, and nothing of another request is behind it
    have h_len : sent.length = r.payloadLength := hsent.antisymm (not_lt.mp h_complete)
    have h_none : (r.encode ++ sent).drop (28 + r.payloadLength) = [] := by
      rw [← List.drop_drop, h_rest]
      exact List.drop_of_length_le h_len.le
    rw [h_none, ← h_len, List.take_length]
    rfl

/-- Only while a request is under way the server has something to do. On a
connection with a reply on its way there is nothing to be read. -/
theorem serve_exchange_eq {r : NbdRequest} {id : ℕ} {sent : Bytes} {wire : Wire}
    (h : nbdServe l s = some s') (hc : s.conn = some wire)
    (hex : Exchange r id s.contents sent wire) (hvalid : r.Valid)
    (hsent : sent.length ≤ r.payloadLength) :
    ∃ error cleared, l = .serve error cleared ∧ sent.length = r.payloadLength ∧
      s' = { s with
        contents := r.applied error cleared sent s.contents
        conn := some
          { down := stamp id (r.reply error (r.applied error cleared sent s.contents)) } } := by
  cases hex with
  -- the server has answered already
  | answered error hsent =>
    rw [serve_of_up_nil hc rfl] at h
    exact nomatch h
  | unread =>
    cases l with
    | ok => exact nomatch h
    | fail moved => exact nomatch h
    | serve error cleared =>
      rw [serve_unread hc hvalid hsent] at h
      split at h
      · exact nomatch h
      · next h_complete =>
        exact ⟨error, cleared, rfl, hsent.antisymm (not_lt.mp h_complete), (Option.some.inj h).symm⟩

/-- **The server's step in an exchange.** Outside of the range of the request
nothing changes, and the exchange goes on to its reply. -/
theorem serve_exchange {r : NbdRequest} {id : ℕ} {sent : Bytes} {wire : Wire}
    (h : nbdServe l s = some s') (hc : s.conn = some wire)
    (hex : Exchange r id s.contents sent wire) (hvalid : r.Valid)
    (hsent : sent.length ≤ r.payloadLength) :
    (∃ wire', s'.conn = some wire' ∧ Exchange r id s'.contents sent wire') ∧
      s'.consumed = s.consumed ∧
      ∀ x, (x < r.offset ∨ r.offset + r.length ≤ x) → s'.contents x = s.contents x := by
  obtain ⟨error, cleared, -, h_len, rfl⟩ := serve_exchange_eq h hc hex hvalid hsent
  -- what the server writes stays inside the range of the request
  refine ⟨⟨_, rfl, .answered error h_len⟩, rfl, fun x hx => applied_frame ?_ hx⟩
  rw [h_len]
  unfold NbdRequest.payloadLength
  split
  · exact le_rfl
  · exact Nat.zero_le _

/-- **The server's step while a thread is inside.** It answers the request of
that thread, which stays inside its own range, so the contents outside that
range are as before. -/
theorem serve_inside {sec : NbdSection} {w : NbdWork} (h : nbdServe l s = some s')
    (hok : WorkOk sec s w) (hinside : w.Inside) (hfits : sec.Fits) :
    WorkOk sec s' w ∧ s'.consumed = s.consumed ∧
      ∀ x, (x < sec.range.1.toNat * nbdBlockSize ∨
          (sec.range.1.toNat + sec.range.2.toNat) * nbdBlockSize ≤ x) →
        s'.contents x = s.contents x := by
  -- outside the range of the function is outside the range of its request
  have h_out (i x : ℕ) (hx : x < sec.range.1.toNat * nbdBlockSize ∨
      (sec.range.1.toNat + sec.range.2.toNat) * nbdBlockSize ≤ x) :
      x < (sec.request i).offset ∨ (sec.request i).offset + (sec.request i).length ≤ x := by
    have h_inside := NbdSection.request_inside hfits i
    omega
  cases w with
  | done ok buffer => exact hinside.elim
  | compared result => exact hinside.elim
  | invoke i buffer stage =>
    have h_valid := sec.request_valid i
    cases stage with
    | start => exact hinside.elim
    | headerSent id =>
      obtain ⟨hw, wire, hc, hex⟩ := hok
      obtain ⟨h_ex, h_consumed, h_frame⟩ := serve_exchange h hc hex h_valid (Nat.zero_le _)
      exact ⟨⟨hw, h_ex⟩, h_consumed, fun x hx => h_frame x (h_out i x hx)⟩
    | waiting id =>
      obtain ⟨wire, hc, hex⟩ := hok
      obtain ⟨h_ex, h_consumed, h_frame⟩ :=
        serve_exchange h hc hex h_valid (NbdSection.length_sent hfits i).le
      exact ⟨h_ex, h_consumed, fun x hx => h_frame x (h_out i x hx)⟩
    -- from here on the request has been answered, and no other is under way
    | replied id =>
      rw [serve_of_up_nil hok rfl] at h
      exact nomatch h
    | check =>
      rw [serve_of_calm (hok.imp id And.left)] at h
      exact nomatch h
    | leaving =>
      rw [serve_of_calm (.inr hok.1)] at h
      exact nomatch h

/-- **The server's step leaves the other threads alone**, whose ranges are their
own. They have done with the server, and only look at what they were told. -/
theorem WorkOk.of_outside {sec : NbdSection} {w : NbdWork} (hok : WorkOk sec s w)
    (hout : ¬ w.Inside) (hfits : sec.Fits)
    (hsame : ∀ x, sec.range.1.toNat * nbdBlockSize ≤ x →
      x < (sec.range.1.toNat + sec.range.2.toNat) * nbdBlockSize → s'.contents x = s.contents x) :
    WorkOk sec s' w := by
  cases w with
  | compared result => trivial
  | invoke i buffer stage =>
    cases stage with
    | start => trivial
    | _ => exact absurd trivial hout
  | done ok buffer =>
    cases ok with
    | false => trivial
    | true =>
      -- the buffer of a finished read, whose blocks have not changed
      intro hread
      rw [hok hread]
      have h_inside := NbdSection.request_inside hfits 0
      refine Medium.slice_congr fun x hx hx' => (hsame x ?_ ?_).symm
      · omega
      · omega

end Serve

/-! ### Runs -/

section Run

variable {Θ : Type} {b : Build}

/-- The threads, the locks and the connection. -/
abbrev NbdState (Θ : Type) (b : Build) : Type :=
  State Θ (Fin b.nBackendLocks) NbdSection NbdWork NbdShared

/-- The thread is between entering and returning. -/
def PhaseInside : Phase (Fin b.nBackendLocks) NbdSection NbdWork → Prop
  | .working _ _ w => w.Inside
  | _ => False

instance : DecidablePred (PhaseInside (b := b)) := fun p => by
  unfold PhaseInside
  split <;> infer_instance

/-- A thread enters only when no thread is inside. -/
def Exclusive (s : NbdState Θ b) : Action Θ NbdSection NbdLabel → Prop
  | .act t _ => ¬ PhaseInside (s.phase t) → ∀ u, ¬ PhaseInside (s.phase u)
  | _ => True

instance [Fintype Θ] (s : NbdState Θ b) : DecidablePred (Exclusive s) := fun a => by
  unfold Exclusive
  split <;> infer_instance

/-- The functions a thread may call: with proper arguments, and on its own
blocks. -/
def OwnBlocks (own : Θ → Set ℕ) (t : Θ) (sec : NbdSection) : Prop :=
  sec.Fits ∧ ∀ j, Covers sec.range j → j ∈ own t

/-- Every reply header that a thread has read answers its own request. -/
def RepliesPaired (s : NbdState Θ b) : Prop := s.shared.Paired

/-- A read that returns true has filled its buffer with what the server stores.
No other thread can have changed it, since one of them is inside at a time. -/
def ReadsFilled (s : NbdState Θ b) : Prop :=
  ∀ t blockNr nBlocks buffer held buffer',
    s.phase t = .working (.read blockNr nBlocks buffer) held (.done true buffer') →
    buffer' = s.shared.contents.slice (blockNr.toNat * nbdBlockSize)
      (nBlocks.toNat * nbdBlockSize)

/-- The invariant: at most one thread is inside, and what is under way on the
connection is its exchange. When none is, the connection is calm, and a new
request finds nothing of an old one. -/
structure Orderly (s : NbdState Θ b) : Prop where
  one : ∀ t u, PhaseInside (s.phase t) → PhaseInside (s.phase u) → t = u
  calm : (∀ t, ¬ PhaseInside (s.phase t)) → s.shared.Calm
  work : ∀ t sec held w, s.phase t = .working sec held w → WorkOk sec s.shared w
  paired : s.shared.Paired

theorem orderly_init {shared : NbdShared} (hcalm : shared.Calm) (hnone : shared.consumed = []) :
    Orderly ({ shared := shared } : NbdState Θ b) where
  one t u h := h.elim
  calm _ := hcalm
  work _ _ _ _ h := nomatch h
  paired p hp := by
    rw [hnone] at hp
    exact nomatch hp

/-- A thread that is inside is at work. -/
theorem PhaseInside.exists_working {p : Phase (Fin b.nBackendLocks) NbdSection NbdWork}
    (h : PhaseInside p) : ∃ sec held w, p = .working sec held w ∧ w.Inside := by
  cases p with
  | working sec held w => exact ⟨sec, held, w, rfl, h⟩
  | _ => exact h.elim

variable [DecidableEq Θ]

/-- A thread that is outside goes to another phase outside. Nothing is sent or
read, so that the exchange of another thread is not disturbed. -/
theorem Orderly.update {s : NbdState Θ b} (h : Orderly s) {t : Θ}
    {p : Phase (Fin b.nBackendLocks) NbdSection NbdWork} (hold : ¬ PhaseInside (s.phase t))
    (hnew : ¬ PhaseInside p) (hwork : ∀ sec held w, p = .working sec held w → WorkOk sec s.shared w)
    (owner : Fin b.nBackendLocks → Option Θ) (queue : Θ → List NbdSection) :
    Orderly (b := b)
      { owner := owner, phase := Function.update s.phase t p, queue := queue,
        shared := s.shared } := by
  -- the same threads are inside as before
  have h_same (u : Θ) : PhaseInside (Function.update s.phase t p u) ↔ PhaseInside (s.phase u) := by
    by_cases hu : u = t
    · subst hu
      rw [Function.update_self]
      exact iff_of_false hnew hold
    · rw [Function.update_of_ne hu]
  constructor
  · intro u v hu hv
    exact h.one u v ((h_same u).mp hu) ((h_same v).mp hv)
  · intro hnobody
    exact h.calm fun u hu => hnobody u ((h_same u).mpr hu)
  · intro u sec held w hphase
    by_cases hu : u = t
    · subst hu
      exact hwork sec held w ((Function.update_self u p s.phase).symm.trans hphase)
    · exact h.work u sec held w ((Function.update_of_ne hu p s.phase).symm.trans hphase)
  · exact h.paired

/-- A function begins outside. -/
theorem start_outside (sec : NbdSection) : ∃ buffer, sec.start = .invoke 0 buffer .start := by
  cases sec <;> exact ⟨_, rfl⟩

/-- **Every step keeps the connection in order**, if a thread enters only when
no thread is inside. A step of a thread is the thread's own exchange
(`leavesOrder_act`), one of the server answers the thread that is inside
(`serve_inside`), and all others leave the connection alone. -/
theorem orderly_step {own : Θ → Set ℕ} (hown : Pairwise (Function.onFun Disjoint own))
    {s s' : NbdState Θ b} {a : Action Θ NbdSection NbdLabel} (h : Orderly s)
    (hsecs : SectionsOk (OwnBlocks own) s) (hexcl : Exclusive s a)
    (hstep : step (nbdProgram b) s a = .ok s') : Orderly s' := by
  cases steps_of_step hstep with
  -- calls and locks do not touch the connection, and the thread stays outside
  | call hphase hqueue => exact ⟨h.one, h.calm, h.work, h.paired⟩
  | begin hphase hqueue =>
    refine h.update ?_ id (by simp) s.owner _
    rw [hphase]
    exact id
  | lock hphase hfree =>
    refine h.update ?_ id (by simp) _ s.queue
    rw [hphase]
    exact id
  | unlock hphase =>
    refine h.update ?_ id (by simp) _ s.queue
    rw [hphase]
    exact id
  | leave hphase =>
    refine h.update ?_ id (by simp) s.owner s.queue
    rw [hphase]
    exact id
  | @enter t sec taken hphase =>
    obtain ⟨buffer, h_start⟩ := start_outside sec
    have h_start' : (nbdProgram b).start sec = .invoke 0 buffer .start := h_start
    rw [h_start']
    refine h.update ?_ id ?_ s.owner s.queue
    · rw [hphase]
      exact id
    · intro sec' held' w' heq
      obtain ⟨rfl, -, rfl⟩ := Phase.working.inj heq
      trivial
  | @finish t sec held w hphase hdone =>
    refine h.update ?_ id (by simp) s.owner _
    rw [hphase]
    cases w with
    | invoke i buffer stage => exact nomatch hdone
    | done ok buffer => exact id
    | compared result => exact id
  | @act t l sec held w w' shared hphase hact =>
    have h_sec := (hsecs t).2 sec (by rw [hphase]; rfl)
    -- no other thread is inside
    have h_others (u : Θ) (hu : u ≠ t) : ¬ PhaseInside (s.phase u) := by
      by_cases h_t : PhaseInside (s.phase t)
      · exact fun h_u => hu (h.one u t h_u h_t)
      · exact hexcl h_t u
    have h_left : LeavesOrder sec s.shared w' shared := by
      -- the thread enters with the connection calm, or is the one that is inside
      refine leavesOrder_act hact h_sec.1 (h.work t sec held w hphase) (fun h_w => ?_) h.paired
      refine h.calm fun u => ?_
      by_cases hu : u = t
      · rw [hu, hphase]
        exact h_w
      · exact h_others u hu
    -- so whether anybody is inside is now a matter of this thread
    have h_inside (u : Θ) : PhaseInside (Function.update s.phase t (.working sec held w') u) ↔
        u = t ∧ w'.Inside := by
      by_cases hu : u = t
      · subst hu
        rw [Function.update_self, and_iff_right rfl]
        exact Iff.rfl
      · rw [Function.update_of_ne hu]
        exact iff_of_false (h_others u hu) fun h => hu h.1
    constructor
    · intro u v hu hv
      rw [((h_inside u).mp hu).1, ((h_inside v).mp hv).1]
    · intro hnobody
      exact h_left.calm fun h_w => hnobody t ((h_inside t).mpr ⟨rfl, h_w⟩)
    · intro u sec' held' w'' hphase'
      by_cases hu : u = t
      · subst hu
        -- the thread itself, and the others, which are outside
        obtain ⟨rfl, -, rfl⟩ := Phase.working.inj ((Function.update_self u _ _).symm.trans hphase')
        exact h_left.work
      · have h_u := (Function.update_of_ne hu _ _).symm.trans hphase'
        refine (h.work u sec' held' w'' h_u).of_outside ?_ ((hsecs u).2 sec' (by rw [h_u]; rfl)).1
          fun x _ _ => congrFun h_left.contents x
        have h_out := h_others u hu
        rw [h_u] at h_out
        exact h_out
    · exact h_left.paired
  | @env l shared henv =>
    -- somebody is inside, otherwise there is nothing to answer
    obtain ⟨t, h_t⟩ : ∃ t, PhaseInside (s.phase t) := by
      by_contra h_nobody
      have h_none : nbdServe l s.shared = none := serve_of_calm (h.calm (not_exists.mp h_nobody))
      exact nomatch h_none.symm.trans henv
    obtain ⟨sec, held, w, hphase, h_w⟩ := h_t.exists_working
    have h_sec := (hsecs t).2 sec (by rw [hphase]; rfl)
    obtain ⟨h_ok, h_consumed, h_frame⟩ :=
      serve_inside henv (h.work t sec held w hphase) h_w h_sec.1
    constructor
    · exact h.one
    · exact fun hnobody => absurd h_t (hnobody t)
    · intro u sec' held' w' hphase'
      by_cases hu : u = t
      · subst hu
        obtain ⟨rfl, -, rfl⟩ := Phase.working.inj (hphase.symm.trans hphase')
        exact h_ok
      · have h_sec' := (hsecs u).2 sec' (by rw [hphase']; rfl)
        refine (h.work u sec' held' w' hphase').of_outside ?_ h_sec'.1 fun x hx hx' => ?_
        · intro h_w'
          refine hu (h.one u t ?_ h_t)
          rw [hphase']
          exact h_w'
        · -- the block of this address belongs to the other thread
          refine h_frame x (outside_of_notCovers (by decide) fun j hj hx_j => ?_)
          have h_block : Covers sec'.range j := by
            have h_bs : 0 < nbdBlockSize := by decide
            constructor
            · exact Nat.lt_succ_iff.mp (Nat.lt_of_mul_lt_mul_right (hx.trans_lt hx_j.2))
            · exact Nat.lt_of_mul_lt_mul_right (hx_j.1.trans_lt hx')
          exact Set.disjoint_left.mp (hown hu) (h_sec'.2 j h_block) (h_sec.2 j hj)
    · intro p hp
      exact h.paired p (h_consumed ▸ hp)

/-- **Requests and replies stay paired** in every run in which threads use their
own blocks and enter one at a time. No mutex covers the exchange of a request
and its reply on the one socket, so the threads have to take turns by themselves
(`Exclusive`); then every reply that is read answers the request that was sent
last, and the reads are filled with the blocks they asked for. -/
theorem nbd_pairing {own : Θ → Set ℕ} (hown : Pairwise (Function.onFun Disjoint own))
    {shared : NbdShared} (hcalm : shared.Calm) (hnone : shared.consumed = [])
    {as : List (Action Θ NbdSection NbdLabel)} (hcalls : ∀ a ∈ as, CallsOk (OwnBlocks own) a)
    (hexcl : Machine.Along (step (nbdProgram b)) Exclusive { shared := shared } as)
    {s : NbdState Θ b} (hrun : Machine.run (step (nbdProgram b)) { shared := shared } as = .ok s) :
    RepliesPaired s ∧ ReadsFilled s := by
  -- the run keeps the invariant, and that every thread is in its own blocks
  have h_inv : Orderly s ∧ SectionsOk (OwnBlocks own) s :=
    Machine.run_induction (I := fun s => Orderly s ∧ SectionsOk (OwnBlocks own) s)
      (fun s a s' h hcond hstep =>
        ⟨orderly_step hown h.1 h.2 hcond.1 hstep, sectionsOk_step h.2 hcond.2 hstep⟩)
      as _ _ ⟨orderly_init hcalm hnone, sectionsOk_init _ _⟩ (hexcl.and_mem hcalls) hrun
  obtain ⟨h_orderly, h_secs⟩ := h_inv
  refine ⟨h_orderly.paired, ?_⟩
  intro t blockNr nBlocks buffer held buffer' hphase
  have h_fits := ((h_secs t).2 _ (by rw [hphase]; rfl)).1
  have h_filled : Filled _ buffer' s.shared.contents := h_orderly.work t _ held _ hphase
  -- the range fits into 64 bits, so neither product of the source has wrapped
  have h_off : NbdSection.offset blockNr = blockNr.toNat * nbdBlockSize := h_fits.offset_eq
  have h_len : NbdSection.nBytes nBlocks = nBlocks.toNat * nbdBlockSize :=
    Nat.mod_eq_of_lt h_fits.2
  rw [← h_off, ← h_len]
  exact h_filled rfl

end Run

/-! ### Two threads -/

namespace Sample

attribute [local instance] neZero_two

/-- The blocks of two threads. -/
def ownBlocks (t : Fin 2) : Set ℕ := {t.val}

/-- Connected, and everything zero. -/
def connected : NbdShared := { contents := fun _ => 0, conn := some {} }

/-- The threads begin: thread 0 trims its block, thread 1 reads its own. -/
def nbdCalls : List (Action (Fin 2) NbdSection NbdLabel) :=
  [.call 0 [.trim 0 1], .call 1 [.read 1 1 []], .begin 0, .lock 0, .enter 0,
    .begin 1, .lock 1, .enter 1]

/-- One after the other, with a reply to each, and the data behind that of the
read. -/
def inTurn : List (Action (Fin 2) NbdSection NbdLabel) :=
  nbdCalls ++ [.act 0 .ok, .env (.serve 0 true), .act 0 .ok, .act 0 .ok, .act 0 .ok,
    .act 1 .ok, .env (.serve 0 true), .act 1 .ok, .act 1 .ok, .act 1 .ok, .act 1 .ok]

/-- Thread 1 sends its request while thread 0 waits for its reply, and is the
first to look for one. -/
def crossed : List (Action (Fin 2) NbdSection NbdLabel) :=
  nbdCalls ++ [.act 0 .ok, .act 1 .ok, .env (.serve 0 true), .act 1 .ok]

/-- The thread is at the end of a read that returns true. -/
def readDone {ι : Type} : Phase ι NbdSection NbdWork → Bool
  | .working (.read _ _ _) _ (.done true _) => true
  | _ => false

theorem ownBlocks_disjoint : Pairwise (Function.onFun Disjoint ownBlocks) := by
  intro t u htu
  exact Set.disjoint_singleton.mpr fun h => htu (Fin.ext h)

theorem nbdCalls_ok : ∀ a ∈ nbdCalls, CallsOk (OwnBlocks ownBlocks) a := by
  have h_one : (1 : UInt32).toNat = 1 := rfl
  have h_own (t : Fin 2) (sec : NbdSection) (hfits : sec.Fits)
      (hrange : sec.range = (UInt64.ofNat t, 1)) : OwnBlocks ownBlocks t sec := by
    refine ⟨hfits, fun j hj => ?_⟩
    rw [hrange] at hj
    have h_nr : (UInt64.ofNat t.val).toNat = t.val := by
      rw [UInt64.toNat_ofNat']
      exact Nat.mod_eq_of_lt (t.isLt.trans (by norm_num))
    obtain ⟨h_le, h_lt⟩ := hj
    simp only [h_nr, h_one] at h_le h_lt
    exact (Nat.lt_succ_iff.mp h_lt).antisymm h_le
  simp only [nbdCalls, List.forall_mem_cons, CallsOk, List.not_mem_nil, IsEmpty.forall_iff,
    implies_true, and_true]
  exact ⟨h_own 0 _ ⟨by decide, trivial⟩ rfl, h_own 1 _ ⟨by decide, by decide⟩ rfl⟩

/-- The other steps are no calls. -/
theorem nbdCalls_append_ok {rest : List (Action (Fin 2) NbdSection NbdLabel)}
    (h : ∀ a ∈ rest, ∀ t secs, a ≠ .call t secs) :
    ∀ a ∈ nbdCalls ++ rest, CallsOk (OwnBlocks ownBlocks) a := by
  intro a ha
  rcases List.mem_append.mp ha with ha | ha
  · exact nbdCalls_ok a ha
  · cases a with
    | call t secs => exact absurd rfl (h _ ha t secs)
    | _ => trivial

end Sample

open Sample in
/-- One thread after the other. Both get their replies, and the read has
returned true with its buffer full. -/
theorem nbd_pairing_inTurn : ∃ s : NbdState (Fin 2) .posix,
    Machine.run (step (nbdProgram .posix)) { shared := connected } inTurn = .ok s ∧
      s.shared.consumed.length = 2 ∧
      readDone (s.phase 1) = true ∧ RepliesPaired s ∧ ReadsFilled s := by
  have h_eval : (Machine.run (step (nbdProgram .posix)) { shared := connected }
      inTurn).toOption.any (fun s => decide (s.shared.consumed.length = 2 ∧
        readDone (s.phase 1) = true)) = true := by
    decide +kernel
  obtain ⟨s, h_run, h_two, h_done⟩ := Machine.exists_ok_of_any h_eval
  exact ⟨s, h_run, h_two, h_done, nbd_pairing ownBlocks_disjoint (.inr rfl) rfl
    (nbdCalls_append_ok (by simp)) (by decide +kernel) h_run⟩

open Sample in
/-- Requests that cross: thread 1 takes the reply to thread 0's request. -/
theorem nbd_pairing_fails : ∃ s : NbdState (Fin 2) .posix,
    Machine.run (step (nbdProgram .posix)) { shared := connected } crossed = .ok s ∧
      (∀ a ∈ crossed, CallsOk (OwnBlocks ownBlocks) a) ∧ ¬ RepliesPaired s := by
  have h_eval : (Machine.run (step (nbdProgram .posix)) { shared := connected }
      crossed).toOption.any (fun s =>
        decide (s.shared.consumed = [(1, List.replicate 16 0)])) = true := by
    decide +kernel
  obtain ⟨s, h_run, h_consumed⟩ := Machine.exists_ok_of_any h_eval
  refine ⟨s, h_run, nbdCalls_append_ok (by simp), fun hpaired => ?_⟩
  have h_pair := hpaired (1, List.replicate 16 0) (by rw [h_consumed]; exact List.mem_cons_self)
    0 (by simp)
  exact absurd h_pair (by decide)

end IscsiTarget
