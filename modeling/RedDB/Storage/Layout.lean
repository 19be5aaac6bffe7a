import RedDB.Storage.PageSpec

/-! What the pages of a tree stand for. -/

namespace RedDB.Storage

open Library Program

section

def chainPages : List Nat → Bytes → List Page
  | [], _ => []
  | pageId :: rest, bytes =>
    overflowPage pageId (rest.headD 0) (bytes.take overflowPayloadPerPage) ::
      chainPages rest (bytes.drop overflowPayloadPerPage)

inductive StoredAs (env : Env) (value : Bytes) : Bytes → List Page → Prop
  | inline {stored : Bytes} (cell : encodeInlineWithoutPages env value = .ok (some stored)) :
    StoredAs env value stored []
  | spilled {pageIds : List Nat} (large : encodeInlineWithoutPages env value = .ok none)
      (enough : pageIds.length = pagesNeeded (valueCodecEncode env.lz4 value).2.length)
      (valid : ∀ pageId ∈ pageIds, ValidPageId pageId) :
    StoredAs env value
      (encodeBTreePointer (pageIds.headD 0) (valueCodecEncode env.lz4 value).2.length
        ((valueCodecEncode env.lz4 value).1 = .lz4))
      (chainPages pageIds (valueCodecEncode env.lz4 value).2)

end

end RedDB.Storage
