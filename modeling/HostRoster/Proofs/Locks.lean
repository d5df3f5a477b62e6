import HostRoster.Lock.Json
import HostRoster.Proofs.Instants
import HostRoster.Proofs.JsonText

/-!
# Locks

A lock that is written down is read as that lock, and a lock that has expired stays so.
-/
namespace HostRoster.Lock

theorem plain_toJson (l : Lock) : Json.Plain l.toJson := by
  refine .obj fun f hf => ?_
  simp only [List.mem_cons, List.not_mem_nil, or_false] at hf
  rcases hf with rfl | rfl | rfl | rfl <;> exact .str _

/-- The times of the lock are instants of the calendar. -/
structure Dated (l : Lock) : Prop where
  acquired : l.acquiredAt.Dated
  expires : l.expiresAt.Dated

theorem ofJson?_toJson {l : Lock} (dated : l.Dated) : ofJson? l.toJson = some l := by
  simp [ofJson?, toJson, Json.fields?, Json.required, List.lookup_cons, Json.text?, Instant.ofJson?,
    Instant.toJson, Instant.parse_stored dated.acquired, Instant.parse_stored dated.expires]

theorem parse_document_of_dated {l : Lock} (dated : l.Dated) : parse l.document = .ok l := by
  rw [parse, document, Json.parse_indented l.plain_toJson, Option.bind_eq_bind, Option.bind_some,
    ofJson?_toJson dated]

theorem parse_document {l : Lock} (acquired : l.acquiredAt.Storable)
    (expires : l.expiresAt.Storable) : parse l.document = .ok l :=
  parse_document_of_dated ⟨acquired.dated, expires.dated⟩

/-- A lock that holds now held before. -/
theorem holds_earlier {l : Lock} {time now : Instant} (holds : l.isExpired now = false)
    (later : now.isBefore time = false) : l.isExpired time = false := by
  rw [isExpired] at *
  rw [Instant.not_isBefore_iff] at *
  omega

theorem expired_later {l : Lock} {time now : Instant} (expired : l.isExpired time = true)
    (later : now.isBefore time = false) : l.isExpired now = true := by
  rw [isExpired, Instant.isBefore_iff] at *
  rw [Instant.not_isBefore_iff] at later
  omega

end HostRoster.Lock
