import CxxDeps.Rtp.Feedback

/-! `rtcp_sdes.c` with `sdes`, `rtcp_bye.c` and `rtcp_app.c`: the packets of RTCP that are
neither reports nor feedback. The outer `none` of a result stands for a use of memory that is
not there: outside of the buffer, behind what was allocated, or already freed. -/

namespace CxxDeps.Rtp

open Library

/-! ### `rtcp_sdes.c` -/

/-- `rtcp_sdes`; an entry holds the type and the data of its items. -/
structure SdesPacket where
  header : RtcpHeader
  srcs : List RtcpSdesEntry := []
  deriving DecidableEq, Repr

/-- The bytes of the items, one after the other. -/
def itemBytes (item : UInt8 × List UInt8) : List UInt8 :=
  item.1 :: UInt8.ofNat item.2.length :: item.2

namespace RtcpSdesEntry

def itemsBytes (source : RtcpSdesEntry) : List UInt8 := source.items.flatMap itemBytes

/-- `entry_size`: the source, the items and the end of the list, on a boundary of four bytes. -/
def size (source : RtcpSdesEntry) : ℕ :=
  let size := 5 + (source.items.map fun item => 2 + item.2.length).sum
  if size % 4 = 0 then size else size + (4 - size % 4)

/-- `serialize_entry`, where there is room. -/
def bytes (source : RtcpSdesEntry) : List UInt8 :=
  let written := toBe32 source.id ++ source.itemsBytes
  written ++ List.replicate (source.size - written.length) 0

end RtcpSdesEntry

namespace SdesPacket

/-- `rtcp_sdes_create` with `rtcp_sdes_init`. -/
def create : SdesPacket where
  header := ⟨2, false, 0, RtcpType.sdes.toByte, 0⟩

/-- The entries that the count of the header covers. -/
def entries (packet : SdesPacket) : List RtcpSdesEntry :=
  packet.srcs.take packet.header.count.toNat

/-- `rtcp_sdes_size`. -/
def size (packet : SdesPacket) : ℕ := 4 + (packet.entries.map RtcpSdesEntry.size).sum

/-- `rtcp_sdes_add_entry`. The count has five bits; after 31 the array would be written at
-1. -/
def addEntry (packet : SdesPacket) (id : UInt32) : Option (ℤ × SdesPacket) :=
  if packet.header.count = 0 then
    some (0, { packet with header.count := 1, srcs := [{ id }] })
  else if packet.entries.any fun source => source.id = id then some (-1, packet)
  else
    let count := (packet.header.count + 1) &&& 0x1f
    if count = 0 then none
    else some (0, { packet with header.count := count, srcs := packet.entries ++ [{ id }] })

/-- `rtcp_sdes_set_item` of the first entry with the source; `data` is the C string. An item of
the type goes by `free_item`, which moves one item more than there is. -/
def setItem (packet : SdesPacket) (src : UInt32) (type : UInt8) (data : List UInt8) :
    Option (ℤ × SdesPacket) :=
  match packet.entries.findIdx? fun source => source.id = src with
  | none => some (-1, packet)
  | some index =>
    let items := (packet.entries.getD index { id := src }).items
    if items.any fun item => item.1 = type then none
    else if 0xff < data.length ∨ items.length = 0xff then some (-1, packet)
    else
      let add (source : RtcpSdesEntry) : RtcpSdesEntry :=
        { source with items := source.items ++ [(type, data)] }
      let packet := { packet with srcs := packet.entries.modify index add }
      some (0, { packet with header.length := UInt16.ofNat (packet.size / 4 - 1) })

/-- `sdes::add_item`. What `rtcp_sdes_set_item` returns is never above 0. -/
def addItem (packet : SdesPacket) (src : UInt32) (type : UInt8) (data : List UInt8) :
    Option (Bool × SdesPacket) := do
  let (result, packet) ← packet.addEntry src
  if result < 0 then return (false, packet)
  else
    let (_, packet) ← packet.setItem src type data
    return (true, packet)

/-- `sdes::serialize`: `rtcp_sdes_serialize` into as many bytes as it takes. -/
def serialize (packet : SdesPacket) : List UInt8 :=
  packet.header.bytes ++ packet.entries.flatMap RtcpSdesEntry.bytes

/-- The items from a position on, and the next boundary. An item of a type that is there is
refused, so that there are never more than 255. -/
def parseItems (buffer : List UInt8) :
    ℕ → ℕ → List (UInt8 × List UInt8) → Option (Option (List (UInt8 × List UInt8) × ℕ))
  | 0, _, _ => none
  | fuel + 1, offset, items =>
    match buffer[offset]? with
    | none => none
    | some type =>
      if type = 0 then some (some (items, offset + (4 - offset % 4)))
      else
        match buffer[offset + 1]? with
        | none => none
        | some length =>
          if items.any fun item => item.1 = type then some none
          else if buffer.length < offset + 2 + length.toNat then none
          else
            let item := (type, (buffer.drop (offset + 2)).take length.toNat)
            parseItems buffer fuel (offset + 2 + length.toNat) (items ++ [item])

/-- The sources from a position on. -/
def parseEntries (buffer : List UInt8) : ℕ → ℕ → Option (Option (List RtcpSdesEntry))
  | 0, _ => some (some [])
  | count + 1, offset =>
    match readU32 buffer offset with
    | none => none
    | some id =>
      -- every item takes two bytes and more, so the fuel is not used up
      match parseItems buffer (buffer.length + 1) (offset + 4) [] with
      | none => none
      | some none => some none
      | some (some (items, next)) =>
        (parseEntries buffer count next).map fun rest => rest.map ({ id, items } :: ·)

/-- `rtcp_sdes_parse` of a new packet. -/
def parse (buffer : List UInt8) : Option (Option SdesPacket) :=
  match RtcpHeader.parse buffer with
  | none => some none
  | some header =>
    if header.pt ≠ RtcpType.sdes.toByte then some none
    else (parseEntries buffer header.count.toNat 4).map fun srcs =>
      srcs.map fun srcs => { header, srcs }

/-- `rtcp_sdes_parse`, with the entries that the callback gets one by one. -/
def parseSrcs (buffer : List UInt8) : Option (List RtcpSdesEntry) :=
  (parse buffer).join.map SdesPacket.srcs

end SdesPacket

/-! ### `rtcp_bye.c` -/

/-- `rtcp_bye`. -/
structure ByePacket where
  header : RtcpHeader
  srcIds : List UInt32 := []
  message : Option (List UInt8) := none
  deriving DecidableEq, Repr

namespace ByePacket

/-- `rtcp_bye_create`: all zeros. -/
def create : ByePacket where
  header := ⟨0, false, 0, 0, 0⟩

/-- `rtcp_bye_init`. -/
def init (packet : ByePacket) : ByePacket :=
  { packet with header.version := 2, header.pt := RtcpType.bye.toByte }

def sources (packet : ByePacket) : List UInt32 := packet.srcIds.take packet.header.count.toNat

/-- `rtcp_bye_size`. -/
def size (packet : ByePacket) : ℕ :=
  let size := 4 + packet.header.count.toNat * 4
  match packet.message with
  | none => size
  | some message =>
    let size := size + (1 + message.length)
    if size % 4 = 0 then size else size + (4 - size % 4)

/-- `rtcp_bye_add_source`; after 31 sources the array would be written at -1. -/
def addSource (packet : ByePacket) (srcId : UInt32) : Option (ℤ × ByePacket) :=
  let update (packet : ByePacket) : ByePacket :=
    { packet with header.length := UInt16.ofNat (packet.size / 4 - 1) }
  if packet.header.count = 0 then
    some (0, update { packet with header.count := 1, srcIds := [srcId] })
  else if srcId ∈ packet.sources then some (-1, packet)
  else
    let count := (packet.header.count + 1) &&& 0x1f
    if count = 0 then none
    else
      some (0, update { packet with header.count := count, srcIds := packet.sources ++ [srcId] })

/-- `rtcp_bye_serialize` into a buffer of zeros; a message of more than 255 bytes is refused. -/
def serialize (packet : ByePacket) (size : ℕ) : Option (List UInt8) :=
  if size < packet.size then none
  else
    let written := packet.header.bytes ++ packet.sources.flatMap toBe32
    match packet.message with
    | none => some written
    | some message =>
      if 0xff < message.length then none
      else
        let written := written ++ UInt8.ofNat message.length :: message
        some (written ++ List.replicate (packet.size - written.length) 0)

/-- `rtcp_bye_parse` of a new packet. A buffer that is too short for the sources frees the
packet, which the caller frees again. A message has one byte more than its length, and its end
is written to the byte behind that. -/
def parse (buffer : List UInt8) : Option (Option RtcpBye) :=
  match RtcpHeader.parse buffer with
  | none => some none
  | some header =>
    if header.pt ≠ RtcpType.bye.toByte then some none
    else
      let offset := 4 + 4 * header.count.toNat
      if buffer.length < offset then none
      else if offset < buffer.length then none
      else some (some { srcIds := wordsAt buffer 4 header.count.toNat })

/-- `send_rtcp_bye` of a stream with these senders, into a buffer of 2048 bytes. -/
def send (reason : Option (List UInt8)) (senders : List UInt32) : Option (List UInt8) := do
  let packet ← senders.foldlM (fun packet ssrc => (packet.addSource ssrc).map Prod.snd)
    { create with message := reason }
  packet.serialize 2048

end ByePacket

/-! ### `rtcp_app.c` -/

/-- `rtcp_app`; `app_size` is the length of `appData`. -/
structure AppPacket where
  header : RtcpHeader
  ssrc : UInt32 := 0
  name : UInt32 := 0
  appData : Option (List UInt8) := none
  deriving DecidableEq, Repr

namespace AppPacket

/-- `rtcp_app_create` with `rtcp_app_init`. -/
def create (subtype : UInt8) : AppPacket where
  header := ⟨2, false, subtype &&& 0x1f, RtcpType.app.toByte, 2⟩

/-- `rtcp_app_size`. -/
def size (packet : AppPacket) : ℕ :=
  match packet.appData with
  | some (b :: bs) =>
    let size := 12 + (b :: bs).length
    if size % 4 = 0 then size else size + (4 - size % 4)
  | _ => 12

/-- `rtcp_app_set_data`, where there is memory. -/
def setData (packet : AppPacket) (data : List UInt8) : ℤ × AppPacket :=
  if packet.appData.isSome then (-1, packet)
  else
    let packet := { packet with appData := some data }
    (0, { packet with header.length := UInt16.ofNat (packet.size / 4 - 1) })

/-- `rtcp_app_serialize`. -/
def serialize (packet : AppPacket) (size : ℕ) : Option (List UInt8) :=
  if size < packet.size then none
  else
    let written := packet.header.bytes ++ toBe32 packet.ssrc ++ toBe32 packet.name ++
      packet.appData.getD []
    some (written ++ List.replicate (packet.size - written.length) 0)

/-- `rtcp_app_parse` of a new packet. The length of the header is not compared with the size. -/
def parse (buffer : List UInt8) : Option (Option RtcpApp) :=
  match RtcpHeader.parse buffer with
  | none => some none
  | some header =>
    if header.pt ≠ RtcpType.app.toByte then some none
    else do
      let ssrc ← readU32 buffer 4
      let name ← readU32 buffer 8
      let length := (header.length.toNat + 1) * 4
      if 12 < length then
        if buffer.length < length then none
        else
          return some { subtype := header.count, ssrc, name,
                        appData := (buffer.drop 12).take (length - 12) }
      else return some { subtype := header.count, ssrc, name }

end AppPacket

/-! ### Items and entries in a buffer -/

/-- The items have types of their own, none of which is the end of the list, and fit their
lengths. -/
structure ItemsOk (items : List (UInt8 × List UInt8)) : Prop where
  nodup : (items.map Prod.fst).Nodup
  type_ne : ∀ item ∈ items, item.1 ≠ 0
  length_le : ∀ item ∈ items, item.2.length ≤ 255

theorem itemsOk_nil : ItemsOk [] := ⟨List.nodup_nil, by simp, by simp⟩

theorem getElem?_append_at (before after : List UInt8) (i : ℕ) :
    (before ++ after)[before.length + i]? = after[i]? := by
  rw [List.getElem?_append_right (by omega), Nat.add_sub_cancel_left]

theorem take_drop_at (before data after : List UInt8) :
    ((before ++ (data ++ after)).drop before.length).take data.length = data := by
  rw [List.drop_left, List.take_left]

/-- Items that were written are read, up to the end of the list. -/
theorem parseItems_flatMap (items done : List (UInt8 × List UInt8)) (before after : List UInt8)
    (h : ItemsOk (done ++ items)) (fuel : ℕ) (hfuel : items.length < fuel) :
    SdesPacket.parseItems (before ++ (items.flatMap itemBytes ++ 0 :: after)) fuel before.length
        done =
      some (some (done ++ items, before.length + (items.flatMap itemBytes).length +
        (4 - (before.length + (items.flatMap itemBytes).length) % 4))) := by
  induction items generalizing done before fuel with
  | nil =>
    obtain ⟨fuel, rfl⟩ := Nat.exists_eq_add_of_lt hfuel
    have hend := getElem?_append_at before (0 :: after) 0
    rw [Nat.add_zero] at hend
    simp only [List.flatMap_nil, List.nil_append, List.length_nil, Nat.zero_add,
      SdesPacket.parseItems, hend]
    simp
  | cons item items ih =>
    obtain ⟨fuel, rfl⟩ : ∃ n, fuel = n + 1 := ⟨fuel - 1, by omega⟩
    obtain ⟨type, data⟩ := item
    have hmem : (type, data) ∈ done ++ (type, data) :: items := by simp
    have hne : type ≠ 0 := h.type_ne _ hmem
    have hle : data.length ≤ 255 := h.length_le _ hmem
    have hlen : (UInt8.ofNat data.length).toNat = data.length := by
      rw [UInt8.toNat_ofNat']
      omega
    have hfresh : (done.any fun item => decide (item.1 = type)) = false := by
      rw [List.any_eq_false]
      intro item hitem
      have hnodup := h.nodup
      rw [List.map_append, List.nodup_append] at hnodup
      have := hnodup.2.2 item.1 (List.mem_map_of_mem hitem) type (by simp)
      simpa using this
    have hsplit : before ++ (((type, data) :: items).flatMap itemBytes ++ 0 :: after) =
        before ++ (type :: UInt8.ofNat data.length :: (data ++
          (items.flatMap itemBytes ++ 0 :: after))) := by
      simp [itemBytes]
    have htype := getElem?_append_at before
      (type :: UInt8.ofNat data.length :: (data ++ (items.flatMap itemBytes ++ 0 :: after))) 0
    have hlength := getElem?_append_at before
      (type :: UInt8.ofNat data.length :: (data ++ (items.flatMap itemBytes ++ 0 :: after))) 1
    rw [Nat.add_zero] at htype
    rw [hsplit, SdesPacket.parseItems, htype]
    simp only [List.getElem?_cons_zero, if_neg hne, hlength, List.getElem?_cons_succ, hfresh,
      Bool.false_eq_true, if_false, hlen]
    have hbuffer : before ++ (type :: UInt8.ofNat data.length :: (data ++
          (items.flatMap itemBytes ++ 0 :: after))) =
        (before ++ [type, UInt8.ofNat data.length]) ++
          (data ++ (items.flatMap itemBytes ++ 0 :: after)) := by simp
    have hbefore : (before ++ [type, UInt8.ofNat data.length]).length = before.length + 2 := by
      simp
    have hdata : ((before ++ (type :: UInt8.ofNat data.length :: (data ++
          (items.flatMap itemBytes ++ 0 :: after)))).drop (before.length + 2)).take
        data.length = data := by
      rw [hbuffer, ← hbefore]
      exact take_drop_at _ _ _
    have hroom : ¬ (before ++ (type :: UInt8.ofNat data.length :: (data ++
        (items.flatMap itemBytes ++ 0 :: after)))).length < before.length + 2 + data.length := by
      rw [hbuffer]
      simp only [List.length_append, hbefore]
      omega
    rw [if_neg hroom, hdata]
    have hpos : (before ++ [type, UInt8.ofNat data.length] ++ data).length =
        before.length + 2 + data.length := by rw [List.length_append, hbefore]
    have hassoc : before ++ [type, UInt8.ofNat data.length] ++ data ++
        (items.flatMap itemBytes ++ 0 :: after) =
        before ++ (type :: UInt8.ofNat data.length :: (data ++
          (items.flatMap itemBytes ++ 0 :: after))) := by simp
    have hfuel' : items.length < fuel := Nat.lt_of_succ_lt_succ hfuel
    have hrest := ih (done ++ [(type, data)]) (before ++ [type, UInt8.ofNat data.length] ++ data)
      (by simpa using h) fuel hfuel'
    have htotal : (((type, data) :: items).flatMap itemBytes).length =
        2 + data.length + (items.flatMap itemBytes).length := by
      simp only [List.flatMap_cons, List.length_append, itemBytes, List.length_cons]
      omega
    rw [hpos, hassoc] at hrest
    rw [hrest, htotal, List.append_assoc, List.singleton_append]
    have hnext : before.length + 2 + data.length + (items.flatMap itemBytes).length =
        before.length + (2 + data.length + (items.flatMap itemBytes).length) := by omega
    rw [hnext]

namespace RtcpSdesEntry

theorem length_itemsBytes (source : RtcpSdesEntry) : source.itemsBytes.length =
    (source.items.map fun item => 2 + item.2.length).sum := by
  rw [itemsBytes, List.length_flatMap]
  congr 1
  apply List.map_congr_left
  intro item _
  simp [itemBytes]
  omega

theorem length_items_le (source : RtcpSdesEntry) :
    source.items.length ≤ source.itemsBytes.length := by
  rw [itemsBytes]
  induction source.items with
  | nil => exact Nat.le_refl _
  | cons item items ih =>
    rw [List.flatMap_cons, List.length_append, itemBytes, List.length_cons, List.length_cons]
    omega

theorem size_eq (source : RtcpSdesEntry) : source.size =
    4 + source.itemsBytes.length + (4 - (4 + source.itemsBytes.length) % 4) := by
  rw [size, length_itemsBytes]
  split <;> omega

/-- The entry with its end, which is at least one zero. -/
theorem bytes_eq (source : RtcpSdesEntry) : ∃ padding,
    source.bytes = toBe32 source.id ++ (source.itemsBytes ++ 0 :: padding) ∧
      source.bytes.length = source.size := by
  have hsize := source.size_eq
  have hwritten : (toBe32 source.id ++ source.itemsBytes).length =
      4 + source.itemsBytes.length := by
    rw [List.length_append, length_toBe32]
  obtain ⟨n, hn⟩ : ∃ n, source.size - (4 + source.itemsBytes.length) = n + 1 :=
    ⟨source.size - (4 + source.itemsBytes.length) - 1, by omega⟩
  refine ⟨List.replicate n 0, ?_, ?_⟩
  · rw [bytes, hwritten, hn, List.replicate_succ, List.append_assoc]
  · rw [bytes, hwritten, hn, List.length_append, hwritten, List.length_replicate]
    omega

end RtcpSdesEntry

/-- Entries that were written are read. -/
theorem parseEntries_flatMap {srcs : List RtcpSdesEntry}
    (h : ∀ source ∈ srcs, ItemsOk source.items) (before : List UInt8)
    (hmod : before.length % 4 = 0) :
    SdesPacket.parseEntries (before ++ srcs.flatMap RtcpSdesEntry.bytes) srcs.length
        before.length = some (some srcs) := by
  induction srcs generalizing before with
  | nil => rfl
  | cons source srcs ih =>
    obtain ⟨hsource, hsrcs⟩ := List.forall_mem_cons.mp h
    obtain ⟨padding, hbytes, hlength⟩ := source.bytes_eq
    have hsize := source.size_eq
    obtain ⟨rest, hrest⟩ : ∃ rest, rest = padding ++ srcs.flatMap RtcpSdesEntry.bytes := ⟨_, rfl⟩
    obtain ⟨buffer, hdef⟩ : ∃ buffer, buffer =
        before ++ (source :: srcs).flatMap RtcpSdesEntry.bytes := ⟨_, rfl⟩
    have hbuffer : buffer = before ++ (toBe32 source.id ++ (source.itemsBytes ++ 0 :: rest)) := by
      rw [hdef, hrest, List.flatMap_cons, hbytes]
      simp
    have hid : readU32 buffer before.length = some source.id := by
      have h₀ := getD_append_right' before (toBe32 source.id ++ (source.itemsBytes ++ 0 :: rest)) 0
      rw [Nat.add_zero] at h₀
      rw [hbuffer, readU32, if_pos (by simp only [List.length_append, length_toBe32]; omega), u32At,
        h₀, getD_append_right', getD_append_right', getD_append_right']
      exact congrArg some (be32_toBe32 source.id)
    have hcount := source.length_items_le
    have hitems := parseItems_flatMap source.items [] (before ++ toBe32 source.id) rest
      (by simpa using hsource) (buffer.length + 1)
      (by rw [hbuffer]; simp only [List.length_append, List.length_cons]; omega)
    have hstart : (before ++ toBe32 source.id).length = before.length + 4 := by
      rw [List.length_append, length_toBe32]
    rw [hstart, List.append_assoc, show source.items.flatMap itemBytes = source.itemsBytes from rfl,
      ← hbuffer, List.nil_append] at hitems
    have hnext : before.length + 4 + source.itemsBytes.length +
        (4 - (before.length + 4 + source.itemsBytes.length) % 4) =
        (before ++ source.bytes).length := by
      rw [List.length_append, hlength]
      omega
    have htail := ih hsrcs (before ++ source.bytes) (by rw [List.length_append, hlength]; omega)
    rw [List.append_assoc, ← List.flatMap_cons, ← hdef] at htail
    rw [hnext] at hitems
    rw [← hdef, List.length_cons, SdesPacket.parseEntries, hid]
    simp only [hitems, htail]
    rfl

namespace SdesPacket

/-! ### Descriptions over the wire -/

/-- Items added one after the other. -/
def addItems (packet : SdesPacket) (items : List (UInt32 × UInt8 × List UInt8)) :
    Option SdesPacket :=
  items.foldlM (fun packet item => (packet.addItem item.1 item.2.1 item.2.2).map Prod.snd) packet

/-- What a packet has after one more item: of a source only the first counts, and one that is
too long leaves the source without any. -/
def hold (srcs : List RtcpSdesEntry) (item : UInt32 × UInt8 × List UInt8) :
    List RtcpSdesEntry :=
  if srcs.any fun source => source.id = item.1 then srcs
  else srcs ++ [{ id := item.1, items := if 0xff < item.2.2.length then [] else [item.2] }]

/-- The packet has these sources, and can be sent. -/
structure Holds (packet : SdesPacket) (srcs : List RtcpSdesEntry) : Prop where
  header_eq : packet.header =
    ⟨2, false, UInt8.ofNat srcs.length, RtcpType.sdes.toByte, packet.header.length⟩
  srcs_eq : packet.srcs = srcs
  length_le : srcs.length ≤ 31
  items_ok : ∀ source ∈ srcs, ItemsOk source.items

theorem holds_create : Holds create [] := ⟨rfl, rfl, Nat.zero_le _, by simp⟩

theorem modify_append_length {α : Type} (f : α → α) (as : List α) (a : α) :
    (as ++ [a]).modify as.length f = as ++ [f a] := by
  induction as with
  | nil => rfl
  | cons b as ih => rw [List.cons_append, List.length_cons, List.modify_succ_cons, ih]; rfl

theorem length_le_hold (srcs : List RtcpSdesEntry) (item : UInt32 × UInt8 × List UInt8) :
    srcs.length ≤ (hold srcs item).length := by
  unfold hold
  split <;> simp

theorem length_le_foldl_hold (items : List (UInt32 × UInt8 × List UInt8))
    (srcs : List RtcpSdesEntry) : srcs.length ≤ (items.foldl hold srcs).length := by
  induction items generalizing srcs with
  | nil => exact Nat.le_refl _
  | cons item items ih => exact (length_le_hold srcs item).trans (ih _)

/-- The count of five bits goes up to 31 and then to 0. -/
theorem count_succ : ∀ n < 31, (UInt8.ofNat n + 1) &&& 0x1f = UInt8.ofNat (n + 1) ∧
    UInt8.ofNat (n + 1) ≠ 0 := by decide

theorem count_eq_self : ∀ n ≤ 31, UInt8.ofNat n &&& 0x1f = UInt8.ofNat n ∧
    (UInt8.ofNat n).toNat = n := by decide

variable {packet : SdesPacket} {srcs : List RtcpSdesEntry}

theorem Holds.count_eq (h : Holds packet srcs) : packet.header.count = UInt8.ofNat srcs.length := by
  rw [h.header_eq]

theorem Holds.entries_eq (h : Holds packet srcs) : packet.entries = srcs := by
  rw [entries, h.count_eq, (count_eq_self _ h.length_le).2, h.srcs_eq, List.take_length]

theorem Holds.count_eq_zero (h : Holds packet srcs) : packet.header.count = 0 ↔ srcs = [] := by
  rw [h.count_eq, ← List.length_eq_zero_iff]
  refine ⟨fun hzero => ?_, fun hzero => by rw [hzero]; rfl⟩
  have := congrArg UInt8.toNat hzero
  rwa [(count_eq_self _ h.length_le).2] at this

/-- A source that is there is left as it is. -/
theorem Holds.addItem_of_any (h : Holds packet srcs) {src : UInt32}
    (hany : (srcs.any fun source => source.id = src) = true) (type : UInt8) (data : List UInt8) :
    packet.addItem src type data = some (false, packet) := by
  have hne : packet.header.count ≠ 0 := by
    rw [Ne, h.count_eq_zero]
    rintro rfl
    simp at hany
  rw [addItem, addEntry, if_neg hne, h.entries_eq, if_pos hany]
  rfl

theorem Holds.addEntry_of_not_any (h : Holds packet srcs) {src : UInt32}
    (hany : ¬ (srcs.any fun source => source.id = src) = true) :
    packet.addEntry src = if srcs.length = 31 then none
      else some (0, { packet with header.count := UInt8.ofNat (srcs.length + 1),
                                  srcs := srcs ++ [{ id := src }] }) := by
  by_cases hnil : srcs = []
  · subst hnil
    rw [addEntry, if_pos (h.count_eq_zero.mpr rfl)]
    rfl
  rw [addEntry, if_neg (fun hzero => hnil (h.count_eq_zero.mp hzero)), h.entries_eq, if_neg hany,
    h.count_eq]
  by_cases hfull : srcs.length = 31
  · rw [if_pos hfull, hfull]
    rfl
  · obtain ⟨hcount, hne⟩ := count_succ srcs.length (by have := h.length_le; omega)
    rw [if_neg hfull, hcount]
    exact if_neg hne

/-- One more source, with its item. -/
theorem Holds.addItem_of_not_any (h : Holds packet srcs) {src : UInt32}
    (hany : ¬ (srcs.any fun source => source.id = src) = true) {type : UInt8} (htype : type ≠ 0)
    (data : List UInt8) :
    if srcs.length = 31 then packet.addItem src type data = none
    else ∃ packet', packet.addItem src type data = some (true, packet') ∧
      Holds packet' (hold srcs (src, type, data)) := by
  have hadd := h.addEntry_of_not_any hany
  split
  case isTrue hfull => rw [addItem, hadd, if_pos hfull]; rfl
  case isFalse hfull =>
    rw [if_neg hfull] at hadd
    obtain ⟨packet₁, hpacket₁⟩ : ∃ p : SdesPacket, p = { packet with
      header.count := UInt8.ofNat (srcs.length + 1), srcs := srcs ++ [{ id := src }] } := ⟨_, rfl⟩
    rw [← hpacket₁] at hadd
    have hle : srcs.length + 1 ≤ 31 := by have := h.length_le; omega
    have hheader : packet₁.header =
        ⟨2, false, UInt8.ofNat (srcs.length + 1), RtcpType.sdes.toByte, packet.header.length⟩ := by
      rw [hpacket₁]
      simp only
      rw [h.header_eq]
    have hentries : packet₁.entries = srcs ++ [{ id := src }] := by
      rw [entries, hheader, (count_eq_self _ hle).2, hpacket₁, List.take_of_length_le (by simp)]
    have hfind : packet₁.entries.findIdx? (fun source => decide (source.id = src)) =
        some srcs.length := by
      rw [hentries, List.findIdx?_append, List.findIdx?_eq_none_iff.mpr]
      · simp
      · intro source hmem
        simp only [List.any_eq_true, not_exists, not_and] at hany
        simpa using hany source hmem
    have hitems : (packet₁.entries.getD srcs.length { id := src }).items = [] := by
      rw [hentries]
      simp
    obtain ⟨packet₂, hpacket₂⟩ : ∃ p : SdesPacket, p = { packet₁ with
      srcs := srcs ++ [{ id := src, items := [(type, data)] }] } := ⟨_, rfl⟩
    have hset : packet₁.setItem src type data =
        some (if 0xff < data.length then (-1, packet₁)
          else (0, { packet₂ with header.length := UInt16.ofNat (packet₂.size / 4 - 1) })) := by
      rw [setItem, hfind]
      simp only [hitems, List.any_nil, Bool.false_eq_true, if_false, List.length_nil]
      by_cases hlong : 0xff < data.length
      · rw [if_pos (.inl hlong), if_pos hlong]
      · rw [if_neg (by simp only [hlong, false_or]; decide), if_neg hlong, hentries,
          modify_append_length, hpacket₂]
        rfl
    rw [addItem, hadd]
    simp only [Option.bind_eq_bind, Option.bind_some, Int.reduceLT, if_false, hset]
    rw [hold, if_neg hany]
    split
    case isTrue hlong =>
      refine ⟨packet₁, rfl, ?_, ?_, ?_, ?_⟩
      · rw [hheader, List.length_append]; rfl
      · rw [hpacket₁]
      · simpa using hle
      · exact List.forall_mem_append.mpr ⟨h.items_ok, List.forall_mem_singleton.mpr itemsOk_nil⟩
    case isFalse hlong =>
      refine ⟨_, rfl, ?_, by rw [hpacket₂], ?_, ?_⟩
      · rw [hpacket₂, hheader, List.length_append]; rfl
      · simpa using hle
      · have hitem : ItemsOk [(type, data)] :=
          ⟨by simp, by simpa using htype, by simpa using hlong⟩
        exact List.forall_mem_append.mpr ⟨h.items_ok, List.forall_mem_singleton.mpr hitem⟩

/-- The array is written at -1 exactly if there are too many sources. -/
theorem Holds.addItems (h : Holds packet srcs)
    {items : List (UInt32 × UInt8 × List UInt8)} (htypes : ∀ item ∈ items, item.2.1 ≠ 0) :
    (packet.addItems items).elim (31 < (items.foldl hold srcs).length) fun packet' =>
      Holds packet' (items.foldl hold srcs) := by
  induction items generalizing packet srcs with
  | nil => exact h
  | cons item items ih =>
    obtain ⟨htype, htypes⟩ := List.forall_mem_cons.mp htypes
    rw [SdesPacket.addItems, List.foldlM_cons, List.foldl_cons]
    by_cases hany : (srcs.any fun source => source.id = item.1) = true
    · have hheld : hold srcs item = srcs := if_pos hany
      rw [h.addItem_of_any hany, hheld]
      exact ih h htypes
    · have hstep := h.addItem_of_not_any hany htype item.2.2
      split at hstep
      case isTrue hfull =>
        have hheld : (hold srcs item).length = 32 := by
          rw [hold, if_neg hany, List.length_append, hfull, List.length_singleton]
        have hmono := length_le_foldl_hold items (hold srcs item)
        rw [hstep]
        exact Nat.lt_of_lt_of_le (by omega) hmono
      case isFalse hfull =>
        obtain ⟨packet', hadd, hpacket'⟩ := hstep
        rw [hadd]
        exact ih hpacket' htypes

theorem Holds.parse_serialize (h : Holds packet srcs) :
    RtcpHeader.parse packet.serialize = some packet.header ∧
      parseSrcs packet.serialize = some srcs := by
  have hserialize : packet.serialize =
      packet.header.bytes ++ srcs.flatMap RtcpSdesEntry.bytes := by
    rw [serialize, h.entries_eq]
  have hheader : RtcpHeader.parse packet.serialize = some packet.header := by
    rw [hserialize, h.header_eq]
    exact RtcpHeader.parse_bytes (count_eq_self _ h.length_le).1 _ _ _
  have hcount : packet.header.count.toNat = srcs.length := by
    rw [h.count_eq, (count_eq_self _ h.length_le).2]
  have hpt : ¬ packet.header.pt ≠ RtcpType.sdes.toByte := by
    rw [h.header_eq]
    exact not_not_intro rfl
  have hfixed : packet.header.bytes.length = 4 := rfl
  have hentries : parseEntries packet.serialize packet.header.count.toNat 4 = some (some srcs) := by
    rw [hserialize, hcount]
    exact parseEntries_flatMap h.items_ok packet.header.bytes (by rw [hfixed])
  refine ⟨hheader, ?_⟩
  rw [parseSrcs, parse, hheader]
  simp only [if_neg hpt, hentries]
  rfl

/-- Whatever is described, in whatever order: the packet takes no more than 31 sources, and the
other end gets of each source the item that was added first. -/
theorem sdes_over_transport (parsers : Parsers) {items : List (UInt32 × UInt8 × List UInt8)}
    (htypes : ∀ item ∈ items, item.2.1 ≠ 0) :
    (create.addItems items = none ↔ 31 < (items.foldl hold []).length) ∧
      ∀ packet, create.addItems items = some packet →
        detectMessage (packet.serialize.getD 0 0) = .rtp ∧
        handleRtpMessage { parsers with rtcpSdesParse := parseSrcs } none packet.serialize =
          (items.foldl hold []).map .onRtcpSdes := by
  have hrun := holds_create.addItems htypes
  rcases hadd : create.addItems items with _ | packet <;> rw [hadd] at hrun
  · exact ⟨iff_of_true rfl hrun, by simp⟩
  have h : Holds packet (items.foldl hold []) := hrun
  refine ⟨iff_of_false (by simp) (by have := h.length_le; omega), ?_⟩
  rintro _ ⟨rfl⟩
  obtain ⟨hheader, hsrcs⟩ := h.parse_serialize
  have hcount := (count_eq_self _ h.length_le).1
  have hdetect : detectRtcpPacket packet.serialize = some packet.header := by
    rw [detectRtcpPacket, hheader, h.header_eq]
    rfl
  constructor
  · apply detectMessage_of_version
    have hfirst := (rtcp_first_byte _ hcount).1
    rw [version_byte] at hfirst
    have hhead : packet.serialize.getD 0 0 =
        (2 : UInt8) <<< 6 ||| 0 ||| UInt8.ofNat (items.foldl hold []).length := by
      rw [serialize, h.header_eq]
      rfl
    rw [hhead]
    exact hfirst
  · have hpt : packet.header.pt = RtcpType.sdes.toByte := by rw [h.header_eq]
    rw [handleRtpMessage, hdetect]
    simp only [Option.elim_none, Option.elim_some, handleRtcpMessage, hpt,
      RtcpType.ofByte_toByte, hsrcs, handleRtcpSdes]

/-- Two sources, one of which is described twice. -/
theorem sdes_over_transport_twice :
    ∃ packet, create.addItems [(7, 1, [97]), (8, 1, [98]), (7, 2, [99])] = some packet ∧
      detectMessage (packet.serialize.getD 0 0) = .rtp ∧
      handleRtpMessage { noParsers with rtcpSdesParse := parseSrcs } none packet.serialize =
        [.onRtcpSdes ⟨7, [(1, [97])]⟩, .onRtcpSdes ⟨8, [(1, [98])]⟩] := by
  obtain ⟨hnone, hsome⟩ := @sdes_over_transport noParsers
    [(7, 1, [97]), (8, 1, [98]), (7, 2, [99])] (by decide)
  obtain ⟨packet, hpacket⟩ := Option.ne_none_iff_exists'.mp (mt hnone.mp (by decide))
  exact ⟨packet, hpacket, hsome packet hpacket⟩

end SdesPacket

namespace ByePacket

/-! ### Goodbyes over the wire -/

/-- The packet of a stream that has named these sources. Nothing sets its version. -/
structure Names (packet : ByePacket) (named : List UInt32) : Prop where
  version_eq : packet.header.version = 0
  p_eq : packet.header.p = false
  count_eq : packet.header.count = UInt8.ofNat packet.srcIds.length
  length_le : packet.srcIds.length ≤ 31
  nodup : packet.srcIds.Nodup
  mem_iff : ∀ ssrc, ssrc ∈ packet.srcIds ↔ ssrc ∈ named

variable {packet packet' : ByePacket} {named : List UInt32}

theorem Names.sources_eq (h : Names packet named) : packet.sources = packet.srcIds := by
  rw [sources, h.count_eq, (SdesPacket.count_eq_self _ h.length_le).2, List.take_length]

theorem Names.srcIds_eq_nil (h : Names packet named) (hzero : packet.header.count = 0) :
    packet.srcIds = [] := by
  have hcount := congrArg UInt8.toNat hzero
  rw [h.count_eq, (SdesPacket.count_eq_self _ h.length_le).2] at hcount
  exact List.length_eq_zero_iff.mp hcount

theorem Names.addSource (h : Names packet named) {ssrc : UInt32} {result : ℤ}
    (hadd : packet.addSource ssrc = some (result, packet')) :
    Names packet' (named ++ [ssrc]) := by
  have hmem : ∀ other, other ∈ packet.srcIds ++ [ssrc] ↔ other ∈ named ++ [ssrc] := by
    intro other
    rw [List.mem_append, List.mem_append, h.mem_iff]
  unfold ByePacket.addSource at hadd
  rw [h.sources_eq] at hadd
  split at hadd
  case isTrue hzero =>
    obtain ⟨-, rfl⟩ := hadd
    have hnil := h.srcIds_eq_nil hzero
    rw [hnil, List.nil_append] at hmem
    exact ⟨h.version_eq, h.p_eq, rfl, by simp, by simp, hmem⟩
  case isFalse hne =>
    split at hadd
    case isTrue hthere =>
      obtain ⟨-, rfl⟩ := hadd
      refine ⟨h.version_eq, h.p_eq, h.count_eq, h.length_le, h.nodup, fun other => ?_⟩
      rw [← hmem, List.mem_append, List.mem_singleton, or_iff_left_of_imp]
      rintro rfl
      exact hthere
    case isFalse hnew =>
      dsimp only at hadd
      split at hadd
      case isTrue => exact absurd hadd (by simp)
      case isFalse hcount =>
        obtain ⟨-, rfl⟩ := hadd
        have hlt : packet.srcIds.length < 31 := by
          refine lt_of_le_of_ne h.length_le fun hfull => hcount ?_
          rw [h.count_eq, hfull]
          rfl
        refine ⟨h.version_eq, h.p_eq, ?_, ?_, ?_, hmem⟩
        · rw [List.length_append, List.length_singleton]
          exact h.count_eq ▸ (SdesPacket.count_succ _ hlt).1
        · rw [List.length_append, List.length_singleton]
          exact hlt
        · exact h.nodup.append (List.nodup_singleton ssrc) (by simpa using hnew)

theorem Names.foldlM_addSource (h : Names packet named) {senders : List UInt32}
    (hadd : senders.foldlM (fun packet ssrc => (packet.addSource ssrc).map Prod.snd) packet =
      some packet') : Names packet' (named ++ senders) := by
  induction senders generalizing packet named with
  | nil =>
    obtain rfl : packet = packet' := Option.some.inj hadd
    rwa [List.append_nil]
  | cons ssrc senders ih =>
    rw [List.foldlM_cons] at hadd
    rcases hfirst : packet.addSource ssrc with _ | ⟨result, packet₁⟩ <;> rw [hfirst] at hadd
    · exact absurd hadd (by simp)
    · have := ih (h.addSource hfirst) hadd
      rwa [List.append_assoc, List.singleton_append] at this

theorem detectMessage_of_count : ∀ n ≤ 31,
    detectMessage ((0 : UInt8) <<< 6 ||| 0 ||| UInt8.ofNat n) =
      if n < 2 then .stun else if n < 20 then .unknown else .dtls := by decide

/-- No goodbye of a stream is taken for RTCP: up to one source it is taken for STUN, and from 20
on for DTLS. -/
theorem bye_detected_as {reason : Option (List UInt8)} {senders : List UInt32}
    {bytes : List UInt8} (h : send reason senders = some bytes) :
    senders.dedup.length ≤ 31 ∧ detectMessage (bytes.getD 0 0) =
      if senders.dedup.length < 2 then .stun
      else if senders.dedup.length < 20 then .unknown else .dtls := by
  have hcreate : Names { create with message := reason } [] :=
    ⟨rfl, rfl, rfl, Nat.zero_le _, List.nodup_nil, by simp [create]⟩
  obtain ⟨packet, hpacket, hbytes⟩ := Option.bind_eq_some_iff.mp h
  have hnames := hcreate.foldlM_addSource hpacket
  rw [List.nil_append] at hnames
  have hlength : packet.srcIds.length = senders.dedup.length :=
    ((List.perm_ext_iff_of_nodup hnames.nodup senders.nodup_dedup).mpr fun ssrc => by
      rw [hnames.mem_iff, List.mem_dedup]).length_eq
  have hfirst : bytes.getD 0 0 =
      (0 : UInt8) <<< 6 ||| 0 ||| UInt8.ofNat senders.dedup.length := by
    have hhead : packet.header.bytes.getD 0 0 =
        (0 : UInt8) <<< 6 ||| 0 ||| UInt8.ofNat senders.dedup.length := by
      rw [RtcpHeader.bytes, hnames.version_eq, hnames.p_eq, hnames.count_eq, hlength]
      rfl
    rw [← hhead]
    simp only [serialize, RtcpHeader.bytes, List.cons_append] at hbytes
    split at hbytes
    · exact absurd hbytes (by simp)
    split at hbytes
    · obtain rfl := Option.some.inj hbytes
      rfl
    split at hbytes
    · exact absurd hbytes (by simp)
    · obtain rfl := Option.some.inj hbytes
      rfl
  have hle := hlength ▸ hnames.length_le
  exact ⟨hle, by rw [hfirst, detectMessage_of_count _ hle]⟩

/-- Two senders, with a reason. -/
theorem bye_detected_as_unknown :
    ∃ bytes, send (some [98, 121, 101]) [7, 8, 7] = some bytes ∧
      detectMessage (bytes.getD 0 0) = .unknown := by
  obtain ⟨bytes, hbytes⟩ : ∃ bytes, send (some [98, 121, 101]) [7, 8, 7] = some bytes :=
    ⟨_, rfl⟩
  exact ⟨bytes, hbytes, (bye_detected_as hbytes).2.trans (by decide)⟩

end ByePacket

namespace AppPacket

/-! ### Data of an application over the wire -/

/-- `rtcp_app_parse`; what is outside of the buffer is taken as nothing. -/
def parseApp (buffer : List UInt8) : Option RtcpApp := (parse buffer).join

/-- The data up to a boundary of four bytes. -/
def padded (data : List UInt8) : List UInt8 :=
  data ++ List.replicate ((4 - data.length % 4) % 4) 0

/-- A packet with this data. -/
def withData (subtype : UInt8) (ssrc name : UInt32) (data : List UInt8) : AppPacket :=
  (setData { create subtype with ssrc, name } data).2

theorem size_withData (subtype : UInt8) (ssrc name : UInt32) (data : List UInt8) :
    (withData subtype ssrc name data).size = 12 + (padded data).length := by
  have hpadded : (padded data).length = data.length + (4 - data.length % 4) % 4 := by
    rw [padded, List.length_append, List.length_replicate]
  cases data with
  | nil => rfl
  | cons b bs =>
    rw [hpadded]
    simp only [size, withData, setData, create, Option.isSome_none, Bool.false_eq_true, if_false]
    split <;> omega

theorem header_withData (subtype : UInt8) (ssrc name : UInt32) (data : List UInt8) :
    (withData subtype ssrc name data).header = ⟨2, false, subtype &&& 0x1f,
      RtcpType.app.toByte, UInt16.ofNat ((12 + (padded data).length) / 4 - 1)⟩ := by
  rw [← size_withData subtype ssrc name data]
  rfl

theorem serialize_withData (subtype : UInt8) (ssrc name : UInt32) (data : List UInt8) :
    let packet := withData subtype ssrc name data
    packet.serialize packet.size =
      some (packet.header.bytes ++ (toBe32 ssrc ++ (toBe32 name ++ padded data))) := by
  intro packet
  have hsize : packet.size = 12 + (padded data).length := size_withData subtype ssrc name data
  have hfixed : (packet.header.bytes ++ toBe32 ssrc ++ toBe32 name).length = 12 := rfl
  have hwritten : packet.header.bytes ++ toBe32 packet.ssrc ++ toBe32 packet.name ++
      packet.appData.getD [] = packet.header.bytes ++ toBe32 ssrc ++ toBe32 name ++ data := rfl
  have hpadding : packet.size - (packet.header.bytes ++ toBe32 ssrc ++ toBe32 name ++ data).length =
      (4 - data.length % 4) % 4 := by
    rw [hsize, padded, List.length_append, List.length_append, hfixed, List.length_replicate]
    omega
  rw [serialize, if_neg (by omega), hwritten]
  dsimp only
  rw [hpadding, padded]
  simp only [List.append_assoc]

/-- The other end gets as much of the data as the length of the header says. -/
theorem parse_withData (subtype : UInt8) (ssrc name : UInt32) (data : List UInt8) :
    parse ((withData subtype ssrc name data).header.bytes ++
        (toBe32 ssrc ++ (toBe32 name ++ padded data))) =
      some (some { subtype := subtype &&& 0x1f, ssrc, name,
                   appData := (padded data).take
                    ((((12 + (padded data).length) / 4 - 1) % 65536 + 1) * 4 - 12) }) := by
  have hmod : (padded data).length % 4 = 0 := by
    rw [padded, List.length_append, List.length_replicate]
    omega
  have hand : subtype &&& 0x1f &&& 0x1f = subtype &&& 0x1f := by
    rw [UInt8.and_assoc]
    rfl
  obtain ⟨buffer, hbuffer⟩ : ∃ buffer, buffer = (withData subtype ssrc name data).header.bytes ++
      (toBe32 ssrc ++ (toBe32 name ++ padded data)) := ⟨_, rfl⟩
  have hfixed : ((withData subtype ssrc name data).header.bytes ++
      (toBe32 ssrc ++ toBe32 name)).length = 12 := rfl
  have hlength : buffer.length = 12 + (padded data).length := by
    rw [hbuffer, ← List.append_assoc (toBe32 ssrc), ← List.append_assoc, List.length_append, hfixed]
  have hdrop : buffer.drop 12 = padded data := by
    rw [hbuffer, ← List.append_assoc (toBe32 ssrc), ← List.append_assoc, ← hfixed, List.drop_left]
  have hheader : RtcpHeader.parse buffer = some (withData subtype ssrc name data).header := by
    rw [hbuffer, header_withData]
    exact RtcpHeader.parse_bytes hand _ _ _
  have hssrc : readU32 buffer 4 = some ssrc := by
    rw [readU32, if_pos (by omega), hbuffer]
    exact congrArg some (be32_toBe32 ssrc)
  have hname : readU32 buffer 8 = some name := by
    rw [readU32, if_pos (by omega), hbuffer]
    exact congrArg some (be32_toBe32 name)
  rw [← hbuffer, parse, hheader, header_withData]
  simp only [ne_eq, not_true_eq_false, if_false, hssrc, hname, hdrop, hlength,
    Option.bind_eq_bind, Option.bind_some, Option.pure_def, UInt16.toNat_ofNat']
  split
  case isTrue hlong => rw [if_neg (by omega)]
  case isFalse hshort =>
    rw [show (((12 + (padded data).length) / 4 - 1) % 65536 + 1) * 4 - 12 = 0 by omega,
      List.take_zero]

/-- The data of an application arrives as it was padded exactly if its words fit the length of
the header. -/
theorem app_over_transport_iff (parsers : Parsers) (subtype : UInt8) (ssrc name : UInt32)
    (data : List UInt8) :
    let packet := withData subtype ssrc name data
    ∃ bytes, packet.serialize packet.size = some bytes ∧
      detectMessage (bytes.getD 0 0) = .rtp ∧
      (handleRtpMessage { parsers with rtcpAppParse := parseApp } none bytes =
        [.onRtcpApp { subtype := subtype &&& 0x1f, ssrc, name, appData := padded data }] ↔
          data.length ≤ 262132) := by
  intro packet
  have hparse := parse_withData subtype ssrc name data
  have hheader : packet.header = ⟨2, false, subtype &&& 0x1f, RtcpType.app.toByte,
      UInt16.ofNat ((12 + (padded data).length) / 4 - 1)⟩ := header_withData subtype ssrc name data
  have hand : subtype &&& 0x1f &&& 0x1f = subtype &&& 0x1f := by
    rw [UInt8.and_assoc]
    rfl
  refine ⟨_, serialize_withData subtype ssrc name data, ?_, ?_⟩
  · apply detectMessage_of_version
    have hfirst := (rtcp_first_byte _ hand).1
    rw [version_byte] at hfirst
    have hhead : (packet.header.bytes ++ (toBe32 ssrc ++ (toBe32 name ++ padded data))).getD 0 0 =
        (2 : UInt8) <<< 6 ||| 0 ||| subtype &&& 0x1f := by
      rw [hheader]
      rfl
    rw [hhead]
    exact hfirst
  · have hdetect : detectRtcpPacket (packet.header.bytes ++
        (toBe32 ssrc ++ (toBe32 name ++ padded data))) = some packet.header := by
      rw [detectRtcpPacket, hheader, RtcpHeader.parse_bytes hand]
      rfl
    have hpt : packet.header.pt = RtcpType.app.toByte := by rw [hheader]
    have hlength : (padded data).length = data.length + (4 - data.length % 4) % 4 := by
      rw [padded, List.length_append, List.length_replicate]
    rw [handleRtpMessage, hdetect]
    simp only [Option.elim_none, Option.elim_some, handleRtcpMessage, hpt, RtcpType.ofByte_toByte,
      parseApp]
    rw [hparse]
    simp only [Option.join_some, Option.elim_some, List.cons.injEq, Callback.onRtcpApp.injEq,
      RtcpApp.mk.injEq, true_and, and_true, List.take_eq_self_iff]
    omega

end AppPacket

end CxxDeps.Rtp
