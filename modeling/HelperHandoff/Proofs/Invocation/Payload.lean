import HelperHandoff.Invocation.Payload
import HelperHandoff.Proofs.Json.Printing
import HelperHandoff.Proofs.Text.Utf8

/-!
What a helper makes of the message. The bytes are those of one text, which spells one object; the
object holds what was sent, and nothing else was sent that has the same bytes. The bytes also say
themselves where they end: no shorter run of them spells anything, so a receiver that tries again
after every piece is done with the last piece and not before.
-/

set_option autoImplicit false

namespace HelperHandoff

namespace Json

/-- The value that all of the bytes are a text of. -/
def ofBytes? (b : Bytes) : Option Json := (Utf8.decode? b).bind fun s => read? s.toList

theorem ofBytes?_encode (cs : List Char) : ofBytes? (Utf8.encode cs) = read? cs := by
  rw [ofBytes?, Utf8.decode?_encode, Option.bind_some, String.toList_ofList]

theorem exists_of_ofBytes? {b : Bytes} {v : Json} (h : ofBytes? b = some v) :
    ∃ cs, IsText v cs ∧ Utf8.encode cs = b := by
  obtain ⟨s, hs, hv⟩ := Option.bind_eq_some_iff.mp h
  exact ⟨s.toList, isText_of_read? hv, Utf8.decode?_eq_some_iff.mp hs⟩

/-- Printed values other than numbers end where their bytes end. -/
theorem eq_of_isPrefix_encode_render {v w : Json} {pre : Bytes} (hv : ∀ d e, v ≠ .number d e)
    (hpre : ofBytes? pre = some w) (h : pre <+: Utf8.encode (render v)) :
    pre = Utf8.encode (render v) := by
  obtain ⟨cs, hcs, rfl⟩ := exists_of_ofBytes? hpre
  have hp : cs <+: render v := Utf8.isPrefix_of_encode h
  rw [(spelling_render v).eq_of_isPrefix hv hcs hp]

end Json

/-- A receiver adds piece after piece to what it holds, until that is the text of a value. It tells
what it holds then and which pieces it has left alone. -/
def receive (held : Bytes) : List Bytes → Option (Bytes × List Bytes)
  | [] => none
  | piece :: later =>
    if (Json.ofBytes? (held ++ piece)).isSome then some (held ++ piece, later)
    else receive (held ++ piece) later

/-- Pieces that make up a text of which no part in front is one are all taken, and no more. -/
theorem receive_append {whole : Bytes} {v : Json} (hwhole : Json.ofBytes? whole = some v)
    (hfront : ∀ pre w, pre <+: whole → Json.ofBytes? pre = some w → pre = whole)
    {held : Bytes} {pieces : List Bytes} (hne : ∀ p ∈ pieces, p ≠ []) (hsome : pieces ≠ [])
    (h : held ++ pieces.flatten = whole) (later : List Bytes) :
    receive held (pieces ++ later) = some (whole, later) := by
  induction pieces generalizing held with
  | nil => exact absurd rfl hsome
  | cons piece pieces ih =>
    rw [List.flatten_cons, ← List.append_assoc] at h
    rw [List.cons_append, receive]
    by_cases hlast : pieces = []
    · subst hlast
      rw [List.flatten_nil, List.append_nil] at h
      rw [h, hwhole, Option.isSome_some, if_pos rfl, List.nil_append]
    · -- A further piece is not empty, so what is held now is only the front of the whole.
      have hnone : ¬(Json.ofBytes? (held ++ piece)).isSome = true := by
        rw [Option.isSome_iff_exists]
        rintro ⟨w, hw⟩
        have heq := hfront _ w ⟨_, h⟩ hw
        rw [← heq, List.append_right_eq_self, List.flatten_eq_nil_iff] at h
        obtain ⟨q, hq⟩ := List.exists_mem_of_ne_nil _ hlast
        exact hne q (List.mem_cons_of_mem _ hq) (h q hq)
      rw [if_neg hnone]
      exact ih (fun p hp => hne p (List.mem_cons_of_mem _ hp)) hlast h

namespace Payload

theorem toJson_injective {p q : Payload} (h : p.toJson = q.toJson) : p = q := by
  obtain ⟨pid, environ, argv, semid⟩ := p
  obtain ⟨pid', environ', argv', semid'⟩ := q
  simp only [toJson, Json.integer, Json.object.injEq, List.cons.injEq, Prod.mk.injEq, true_and,
    and_true, Json.number.injEq, Json.array.injEq] at h
  obtain ⟨hpid, henv, hargv, hsemid⟩ := h
  have hentry : ∀ e f : String × String,
      (e.1, Json.string e.2) = (f.1, Json.string f.2) → e = f := by
    rintro ⟨k, v⟩ ⟨k', v'⟩ hkv
    simpa using hkv
  have hstring : ∀ s t : String, Json.string s = .string t → s = t := fun s t hst => by
    simpa using hst
  obtain rfl : pid = pid' := UInt32.toNat_inj.mp (Int.ofNat_inj.mp hpid)
  obtain rfl : environ = environ' := SortedMap.ext ((List.map_inj_right hentry).mp henv)
  obtain rfl : argv = argv' := (List.map_inj_right hstring).mp hargv
  obtain rfl : semid = semid' := Int32.toInt_inj.mp hsemid
  rfl

theorem bytes_injective {p q : Payload} (h : p.bytes = q.bytes) : p = q := by
  have hr : p.toJson.render = q.toJson.render := Utf8.encode_injective h
  have hread := Json.read?_render p.toJson
  rw [hr, Json.read?_render, Option.some.injEq] at hread
  exact toJson_injective hread.symm

theorem ofBytes?_bytes (p : Payload) : Json.ofBytes? p.bytes = some p.toJson := by
  rw [bytes, text, Json.ofBytes?_encode, Json.read?_render]

theorem names_ascend (p : Payload) :
    p.environ.entries.Pairwise fun a b => Bytes.ofString a.1 < Bytes.ofString b.1 :=
  List.Pairwise.imp Utf8.ofString_lt p.environ.ascending

/-- The bytes of a message are those of one text, which spells one object and reads back as it; and
no other message has these bytes. -/
theorem bytes_decode (p : Payload) :
    ∃ (text : String) (v : Json),
      v = .object
        [("pid", .number p.pid.toNat 0),
         ("environ", .object (p.environ.entries.map fun e => (e.1, .string e.2))),
         ("argv", .array (p.argv.map .string)),
         ("semid", .number p.semid.toInt 0)] ∧
      Utf8.decode? p.bytes = some text ∧
      (∀ w, Json.IsText w text.toList ↔ w = v) ∧
      Json.read? text.toList = some v ∧
      p.environ.entries.Pairwise (fun a b => Bytes.ofString a.1 < Bytes.ofString b.1) ∧
      ∀ q : Payload, q.bytes = p.bytes → q = p := by
  have hspelled : Json.IsText p.toJson (String.ofList p.text).toList := by
    rw [String.toList_ofList]
    exact Json.isText_render p.toJson
  refine ⟨String.ofList p.text, p.toJson, rfl, Utf8.decode?_encode p.text, ?_, ?_, p.names_ascend,
    fun q hq => bytes_injective hq⟩
  · intro w
    constructor
    · exact fun hw => hw.unique hspelled
    · rintro rfl
      exact hspelled
  · exact Json.read?_of_isText hspelled

theorem eq_bytes_of_isPrefix (p : Payload) {pre : Bytes} {v : Json} (h : pre <+: p.bytes)
    (hv : Json.ofBytes? pre = some v) : pre = p.bytes :=
  Json.eq_of_isPrefix_encode_render (fun _ _ he => by simp [toJson] at he) hv h

theorem bytes_ne_nil (p : Payload) : p.bytes ≠ [] := by
  intro h
  have hread := p.ofBytes?_bytes
  rw [h] at hread
  obtain ⟨cs, hcs, hb⟩ := Json.exists_of_ofBytes? hread
  obtain rfl : cs = [] := Utf8.encode_injective hb
  obtain ⟨a, c, tail, -, hc, -⟩ := hcs.begins
  simp at hc

theorem bytes_printable (p : Payload) : ∀ b ∈ p.bytes, 0x20 ≤ b.toNat :=
  Utf8.le_of_mem_encode (by decide) (Json.printable_render p.toJson)

end Payload

namespace Invocation

/-- However the bytes are cut, a receiver that reads again after every piece has the value with the
last piece and not before, and leaves alone what comes behind. -/
theorem payload_self_delimiting (i : Invocation) (semid : Int32) :
    (i.payload semid).bytes ≠ [] ∧
      (∀ b ∈ (i.payload semid).bytes, 0x20 ≤ b.toNat) ∧
      (∀ pre text v, pre <+: (i.payload semid).bytes → pre ≠ (i.payload semid).bytes →
        Utf8.decode? pre = some text → ¬Json.IsText v text.toList) ∧
      ∀ pieces later : List Bytes, (∀ p ∈ pieces, p ≠ []) →
        pieces.flatten = (i.payload semid).bytes →
        receive [] (pieces ++ later) = some ((i.payload semid).bytes, later) := by
  have hfront : ∀ pre w, pre <+: (i.payload semid).bytes → Json.ofBytes? pre = some w →
      pre = (i.payload semid).bytes := fun pre w h hw => (i.payload semid).eq_bytes_of_isPrefix h hw
  refine ⟨(i.payload semid).bytes_ne_nil, (i.payload semid).bytes_printable, ?_, ?_⟩
  · intro pre text v hpre hne htext hv
    refine hne (hfront pre v hpre ?_)
    rw [Json.ofBytes?, htext, Option.bind_some]
    exact Json.read?_of_isText hv
  · intro pieces later hpieces hflat
    have hsome : pieces ≠ [] := by
      rintro rfl
      exact (i.payload semid).bytes_ne_nil hflat.symm
    exact receive_append (i.payload semid).ofBytes?_bytes hfront hpieces hsome hflat later

end Invocation

end HelperHandoff
