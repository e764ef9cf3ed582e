import Layr.Kv.Keys

/-!
# What a key records

Every internal key is an owner's text in front of the user-visible key. A query key without a
custom suffix ends in a digest, which holds no colon, so the digest can be read off the internal
key; under the assumption that digests do not collide it determines what was hashed, and with it
each member of the hashed tuple.
-/

namespace Layr.Kv

open Go

/-- The text that sets a caller's entries apart. -/
def ownerText (authContext : AuthContext) : String :=
  if authContext.role ≠ "anon" ∧ authContext.visitorHash = "" then
    (if authContext.role = "" then "authenticated" else authContext.role) ++ ":" ++
      authContext.subject ++ ":"
  else
    (if authContext.role = "" then "anon" else authContext.role) ++ ":" ++
      authContext.visitorHash ++ ":"

/-- Both shapes of the internal key, for cached results and for other entries. -/
theorem buildInternalKey_eq (authContext : AuthContext) (userVisibleKey : String) :
    buildInternalKey authContext userVisibleKey =
      (if isCacheKey userVisibleKey then "cache:" else "") ++ ownerText authContext ++
        userVisibleKey := by
  unfold buildInternalKey ownerText
  by_cases hrole : authContext.role ≠ "anon" ∧ authContext.visitorHash = ""
  · rw [if_pos hrole, if_pos hrole]
    by_cases hsubject : authContext.subject = ""
    · have hcolons : "::" = ":" ++ ":" := by decide
      cases isCacheKey userVisibleKey <;> simp [hsubject, hcolons, String.append_assoc]
    · cases isCacheKey userVisibleKey <;> simp [hsubject, String.append_assoc]
  · rw [if_neg hrole, if_neg hrole]
    cases isCacheKey userVisibleKey <;> simp [String.append_assoc]

theorem isCacheKey_rest (text : String) : isCacheKey ("rest:" ++ text) := by
  simp only [isCacheKey, Strings.hasPrefix, Bool.or_eq_true, List.isPrefixOf_iff_prefix,
    String.toList_append]
  exact .inl (List.prefix_append _ _)

/-! ## Digests -/

theorem Digest.notMem (digest : Digest) (text : String) {c : Char} (hdigit : c.isDigit = false)
    (hletter : ¬('a' ≤ c ∧ c ≤ 'f')) : c ∉ (digest.hex text).toList := by
  intro hmem
  rcases digest.isHex text c hmem with h | h
  · rw [hdigit] at h
    cases h
  · exact hletter h

/-- A byte in two hexadecimal digits. -/
def byteHex (byte : UInt8) : List Char :=
  [Json.hexDigit (byte.toNat / 16), Json.hexDigit (byte.toNat % 16)]

theorem hexDigit_isHex {n : ℕ} (h : n < 16) :
    (Json.hexDigit n).isDigit ∨ ('a' ≤ Json.hexDigit n ∧ Json.hexDigit n ≤ 'f') := by
  have hall : ∀ n < 16, (Json.hexDigit n).isDigit ∨
      ('a' ≤ Json.hexDigit n ∧ Json.hexDigit n ≤ 'f') := by decide
  exact hall n h

theorem byteHex_append_inj {byte byte' : UInt8} {r s : List Char}
    (h : byteHex byte ++ r = byteHex byte' ++ s) : byte = byte' ∧ r = s := by
  have hlt := byte.toNat_lt
  have hlt' := byte'.toNat_lt
  simp only [byteHex, List.cons_append, List.nil_append, List.cons.injEq] at h
  have hhigh := congrArg Json.hexValue h.1
  have hlow := congrArg Json.hexValue h.2.1
  rw [Json.hexValue_hexDigit (by omega), Json.hexValue_hexDigit (by omega)] at hhigh hlow
  exact ⟨UInt8.toNat_inj.mp (by omega), h.2.2⟩

/-- A digest without collisions, which writes the bytes themselves, to evaluate definitions on
concrete keys. -/
def Digest.bytes : Digest where
  hex text := String.ofList (text.toUTF8.data.toList.flatMap byteHex)
  isHex := by
    intro text c hc
    rw [String.toList_ofList, List.mem_flatMap] at hc
    obtain ⟨byte, -, hdigit⟩ := hc
    have hlt := byte.toNat_lt
    simp only [byteHex, List.mem_cons, List.not_mem_nil, or_false] at hdigit
    rcases hdigit with rfl | rfl
    · exact hexDigit_isHex (by omega)
    · exact hexDigit_isHex (by omega)
  injective := by
    intro text text' h
    have hclose : ∀ byte r s, byteHex byte ++ r ≠ 'g' :: s := by
      intro byte r s hrunes
      have hlt := byte.toNat_lt
      simp only [byteHex, List.cons_append, List.cons.injEq] at hrunes
      have hhex := hexDigit_isHex (n := byte.toNat / 16) (by omega)
      rw [hrunes.1] at hhex
      exact absurd hhex (by decide)
    have hcodes : text.toUTF8.data.toList.flatMap byteHex ++ 'g' :: [] =
        text'.toUTF8.data.toList.flatMap byteHex ++ 'g' :: [] := by
      rw [String.ofList_injective h]
    have hbytes :=
      (Codes.flatMap_append_cons_inj (fun _ _ _ _ => byteHex_append_inj) hclose hcodes).1
    exact String.toByteArray_inj.mp (ByteArray.ext (Array.toList_inj.mp hbytes))

/-- A digest without collisions that writes the texts of a list by their positions, to evaluate
definitions on concrete keys. -/
def Digest.listed (known : List String) : Digest where
  hex text :=
    match known.idxOf? text with
    | some i => String.ofList ('a' :: Nat.toDigits 10 i)
    | none => String.ofList ('b' :: (Digest.bytes.hex text).toList)
  isHex := by
    intro text c hc
    split at hc
    · rw [String.toList_ofList] at hc
      rcases List.mem_cons.mp hc with rfl | hc
      · exact .inr (by decide)
      · exact .inl (Nat.isDigit_of_mem_toDigits (by decide) (by decide) hc)
    · rw [String.toList_ofList] at hc
      rcases List.mem_cons.mp hc with rfl | hc
      · exact .inr (by decide)
      · exact Digest.bytes.isHex text c hc
  injective := by
    intro text text' h
    simp only at h
    cases hindex : known.idxOf? text with
    | none =>
      cases hindex' : known.idxOf? text' with
      | none =>
        rw [hindex, hindex'] at h
        have hrunes := (List.cons.inj (String.ofList_injective h)).2
        exact Digest.bytes.injective (String.toList_inj.mp hrunes)
      | some j =>
        rw [hindex, hindex'] at h
        exact absurd (List.cons.inj (String.ofList_injective h)).1 (by decide)
    | some i =>
      cases hindex' : known.idxOf? text' with
      | none =>
        rw [hindex, hindex'] at h
        exact absurd (List.cons.inj (String.ofList_injective h)).1 (by decide)
      | some j =>
        rw [hindex, hindex'] at h
        have hdigits := (List.cons.inj (String.ofList_injective h)).2
        have hvalue := congrArg Strconv.decimalValue hdigits
        rw [Strconv.decimalValue_toDigits, Strconv.decimalValue_toDigits,
          Option.some.injEq] at hvalue
        obtain ⟨_, htext, -⟩ := List.idxOf?_eq_some_iff.mp (hvalue ▸ hindex)
        obtain ⟨_, htext', -⟩ := List.idxOf?_eq_some_iff.mp hindex'
        exact htext.symm.trans htext'

/-- A digest behind a separator can be read off the end of a text, and determines what was
hashed. -/
theorem Digest.append_cons_inj (digest : Digest) {sep : Char} {pre pre' : List Char}
    {text text' : String} (hdigit : sep.isDigit = false) (hletter : ¬('a' ≤ sep ∧ sep ≤ 'f'))
    (h : pre ++ sep :: (digest.hex text).toList = pre' ++ sep :: (digest.hex text').toList) :
    pre = pre' ∧ text = text' := by
  -- read from the end: a digest stops at the first separator
  have hreverse : (digest.hex text).toList.reverse ++ sep :: pre.reverse =
      (digest.hex text').toList.reverse ++ sep :: pre'.reverse := by
    simpa using congrArg List.reverse h
  have hstop : ∀ text, sep ∉ (digest.hex text).toList.reverse :=
    fun text hmem => digest.notMem text hdigit hletter (List.mem_reverse.mp hmem)
  obtain ⟨hhex, hpre⟩ := Codes.append_cons_inj (hstop text) (hstop text') hreverse
  have htext : text = text' := digest.injective (String.toList_inj.mp (List.reverse_inj.mp hhex))
  exact ⟨List.reverse_inj.mp hpre, htext⟩

/-- Internal keys that end in digests agree only when the same text was hashed, whoever the
callers are. -/
theorem hashed_eq_of_internalKey_eq (digest : Digest) {kind kind' : String}
    {authContext authContext' : AuthContext} {text text' : String}
    (h : buildInternalKey authContext (kind ++ ":" ++ digest.hex text) =
      buildInternalKey authContext' (kind' ++ ":" ++ digest.hex text')) : text = text' := by
  rw [buildInternalKey_eq, buildInternalKey_eq] at h
  have hlist := congrArg String.toList h
  simp only [String.toList_append, ← List.append_assoc] at hlist
  have hcolon : ":".toList = [':'] := rfl
  rw [hcolon, List.append_assoc, List.append_assoc _ [':']] at hlist
  exact (digest.append_cons_inj (by decide) (by decide) hlist).2

/-! ## Tuples -/

/-- Leaving a zero out loses nothing: the members that follow have other names. -/
theorem nonzeroMember_append_inj {name : String} {n n' : ℤ} {rest rest' : List (String × Json)}
    (hrest : ∀ e, rest.head? = some e → e.1 ≠ name)
    (hrest' : ∀ e, rest'.head? = some e → e.1 ≠ name)
    (h : nonzeroMember name n ++ rest = nonzeroMember name n' ++ rest') :
      n = n' ∧ rest = rest' := by
  unfold nonzeroMember at h
  split_ifs at h with hzero hzero' hzero'
  · exact ⟨hzero.trans hzero'.symm, h⟩
  · exact absurd rfl (hrest (name, .num (.ofInt n')) (by rw [List.nil_append] at h; simp [h]))
  · exact absurd rfl (hrest' (name, .num (.ofInt n)) (by rw [List.nil_append] at h; simp [← h]))
  · simp only [List.singleton_append, List.cons.injEq, Prod.mk.injEq, Json.num.injEq,
      true_and] at h
    exact ⟨Json.NumberText.ofInt_injective h.1, h.2⟩

theorem RESTQueryTuple.toJson_injective : Function.Injective RESTQueryTuple.toJson := by
  intro tuple tuple' h
  rcases tuple with ⟨schema, table, tableVersion, select, filters, order, limit, offset, countExact⟩
  rcases tuple' with
    ⟨schema', table', tableVersion', select', filters', order', limit', offset', countExact'⟩
  simp only [toJson, Json.obj.injEq, List.cons_append, List.nil_append, List.cons.injEq,
    Prod.mk.injEq, Json.str.injEq, true_and] at h
  obtain ⟨hschema, htable, hmembers⟩ := h
  have htail := nonzeroMember_append_inj (by simp) (by simp) hmembers
  obtain ⟨hversion, hrest⟩ := htail
  simp only [List.cons.injEq, Prod.mk.injEq, Json.str.injEq, Json.num.injEq, Json.bool.injEq,
    true_and, and_true] at hrest
  obtain ⟨hselect, hfilters, horder, hlimit, hoffset, hcount⟩ := hrest
  rw [hschema, htable, hversion, hselect, hfilters, horder,
    Json.NumberText.ofInt_injective hlimit, Json.NumberText.ofInt_injective hoffset, hcount]

/-- The member for the variables is left out when there are none. -/
theorem GraphQLQueryTuple.eq_of_key_eq {digest : Digest} {format : FloatFormat}
    {authContext authContext' : AuthContext} {tuple tuple' : GraphQLQueryTuple}
    (h : buildInternalKey authContext ("graphql:" ++ digest.hex (tuple.toJson format).text) =
      buildInternalKey authContext' ("graphql:" ++ digest.hex (tuple'.toJson format).text)) :
    tuple.query = tuple'.query ∧ tuple.tableVersion = tuple'.tableVersion ∧
      Value.toJson format (.obj tuple.vars) = Value.toJson format (.obj tuple'.vars) := by
  rw [show "graphql:" = "graphql" ++ ":" by decide] at h
  replace h := Json.text_injective (hashed_eq_of_internalKey_eq digest h)
  simp only [toJson, Json.obj.injEq, List.cons_append, List.nil_append, List.cons.injEq,
    Prod.mk.injEq, Json.str.injEq, true_and] at h
  obtain ⟨hquery, hmembers⟩ := h
  refine ⟨hquery, ?_⟩
  have hversions : ∀ {n n' : ℤ}, nonzeroMember "table_version" n =
      nonzeroMember "table_version" n' → n = n' := by
    intro n n' hn
    rw [← List.append_nil (nonzeroMember _ n), ← List.append_nil (nonzeroMember _ n')] at hn
    exact (nonzeroMember_append_inj (by simp) (by simp) hn).1
  have hnames : ∀ {json : Json} {rest : List (String × Json)} {n : ℤ},
      ("variables", json) :: rest ≠ nonzeroMember "table_version" n := by
    intro json rest n hn
    unfold nonzeroMember at hn
    split_ifs at hn
    simp at hn
  by_cases hvars : tuple.vars = []
  · by_cases hvars' : tuple'.vars = []
    · rw [if_pos hvars, if_pos hvars', List.nil_append, List.nil_append] at hmembers
      exact ⟨hversions hmembers, by rw [hvars, hvars']⟩
    · rw [if_pos hvars, if_neg hvars', List.nil_append, List.singleton_append] at hmembers
      exact absurd hmembers.symm hnames
  · by_cases hvars' : tuple'.vars = []
    · rw [if_neg hvars, if_pos hvars', List.nil_append, List.singleton_append] at hmembers
      exact absurd hmembers hnames
    · rw [if_neg hvars, if_neg hvars', List.singleton_append, List.singleton_append,
        List.cons.injEq, Prod.mk.injEq] at hmembers
      exact ⟨hversions hmembers.2, hmembers.1.2⟩

end Layr.Kv
