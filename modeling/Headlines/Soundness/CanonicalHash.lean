import Headlines.Gateway.AttachAuth
import Headlines.Proto.Requests

/-! # The request hash and map order

The client and the gateway encode the same message in two processes. The hashes agree for every order in
which the maps are iterated exactly if no map has two entries.
-/

namespace Headlines.Soundness.CanonicalHash

open Auth Gateway Proto

/-- However the two processes hold a message, they compute the same hash. -/
def Canonical (sha256 : List UInt8 → Digest) (message : Message) : Prop :=
  ∀ (client : Message) (request : Outbound Message), message.Equal client → message.Equal request.message →
    hashProtoRequest sha256 client = requestHash sha256 Message.encodeToVec request

/-- The encodings of a message in the possible orders of its maps have different digests. -/
def CollisionFree (sha256 : List UInt8 → Digest) (message : Message) : Prop :=
  ∀ other, message.Equal other → sha256 message.encodeToVec = sha256 other.encodeToVec →
    message.encodeToVec = other.encodeToVec

theorem canonical_iff (sha256 : List UInt8 → Digest) (message : Message)
    (free : CollisionFree sha256 message) : Canonical sha256 message ↔ message.Single := by
  constructor
  · intro canonical
    refine Message.single_iff.mpr fun other equal => ?_
    have digests := canonical message ⟨other, none, none⟩ (.refl message) equal
    exact (equal.eq_of_encodeToVec (free other equal digests)).symm
  · intro single client request sent forwarded
    rw [hashProtoRequest, requestHash, sent.eq_of_single single, forwarded.eq_of_single single]

namespace Sample

open Api

/-- A request to publish one image with these attributes. -/
def image (attrs : Attrs) : Message :=
  publishArticleRequest
    { accountId := "1", title := "t", authorName := "", authorUrl := "", content := [.element "img" attrs []] }

def source : Attrs := ⟨[("src", "s")], by decide⟩
def sourceFirst : Attrs := ⟨[("src", "s"), ("alt", "a")], by decide⟩
def altFirst : Attrs := ⟨[("alt", "a"), ("src", "s")], by decide⟩

/-- SHA-256 of the encodings in question, which differ in their length or in their 22nd byte. -/
def sha256 (input : List UInt8) : Digest :=
  if input.length = 25 then
    #v[244, 19, 126, 150, 223, 240, 157, 167, 39, 57, 239, 231, 141, 153, 30, 213,
    53, 11, 132, 163, 98, 134, 187, 51, 230, 13, 10, 64, 49, 156, 84, 186]
  else if input[21]? = some 116 then
    #v[172, 109, 131, 200, 185, 168, 171, 149, 48, 80, 4, 180, 221, 44, 129, 150,
    122, 34, 205, 216, 188, 69, 128, 182, 60, 33, 243, 199, 140, 91, 136, 192]
  else
    #v[69, 142, 68, 93, 46, 230, 29, 211, 54, 27, 185, 138, 58, 11, 34, 112,
    47, 88, 81, 67, 195, 196, 177, 82, 72, 252, 141, 159, 17, 29, 11, 234]

end Sample

theorem canonical_iff_source : Canonical Sample.sha256 (Sample.image Sample.source) :=
  (canonical_iff Sample.sha256 (Sample.image Sample.source) fun other equal _ => by
    rw [equal.eq_of_single (by simp [Sample.image, Sample.source, single_publishArticleRequest, SparseNodes, Sparse])]).mpr
    (by simp [Sample.image, Sample.source, single_publishArticleRequest, SparseNodes, Sparse])

/-- An image with a source and a text has two encodings. -/
theorem two_encodings : ¬Canonical Sample.sha256 (Sample.image Sample.sourceFirst) := by
  intro canonical
  have equal : (Sample.image Sample.sourceFirst).Equal (Sample.image Sample.altFirst) :=
    .bytes (.bytes (.nested (.nested (.bytes (.map (.swap _ _ _) .empty)) .empty) .empty))
  have same := canonical (Sample.image Sample.sourceFirst) ⟨Sample.image Sample.altFirst, none, none⟩
    (.refl _) equal
  exact absurd same (by decide)

end Headlines.Soundness.CanonicalHash
