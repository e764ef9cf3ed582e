import Layr.Go.Base64
import Layr.Go.Words
import Layr.Image.Path

/-!
# The round trip of image paths

A path that is put together from options and an encoded source is taken apart again by
`ParseURLPath`, unless the source is empty or holds an `@`: an `@` inside the encoding is taken for
the start of an extension.
-/

namespace Layr.Image

open Go Go.Io Strings

/-- A segment of options. -/
abbrev OptionSegment : Type :=
  { segment : String // segment ≠ "" ∧ '/' ∉ segment.toList ∧ segment ≠ "plain" }

namespace Codecs

variable (codecs : Codecs) (segments : List OptionSegment) (url : List Byte)

/-- The codecs with unpadded URL-safe base64 as the standard library has it. -/
def withBase64 : Codecs := { codecs with rawURLEncoding := Base64.decodeString }

/-- The options and a last segment, joined by slashes. -/
def pathOf (last : String) : String := join "/" (segments.map Subtype.val ++ [last])

/-- What a path with a source and an extension should be read as. -/
def parsedOf (extension : String) : ParsedPath :=
  ⟨join "/" (segments.map Subtype.val), codecs.text url, extension⟩

/-- The path of options and a source is read back, without an extension and with one, whether it
starts with a slash or not. -/
def RoundTrips : Prop :=
  ∀ start ∈ ["", "/"],
    codecs.withBase64.parseURLPath (start ++ pathOf segments (Base64.encodeToString url)) =
      some (codecs.parsedOf segments url "") ∧
    ∀ extension : String, (∀ c ∈ ['/', '@', '.'], c ∉ extension.toList) →
      codecs.withBase64.parseURLPath
          (start ++ pathOf segments (Base64.encodeToString url ++ "@" ++ extension)) =
        some (codecs.parsedOf segments url extension)

variable {codecs segments url} {last start : String}

section

variable (hlast : '/' ∉ last.toList)

include hlast

theorem split_pathOf :
    split '/' (pathOf segments last) = segments.map Subtype.val ++ [last] := by
  refine split_join ?_ (by simp)
  rw [List.forall_mem_append, List.forall_mem_map, List.forall_mem_singleton]
  exact ⟨fun segment _ => segment.2.2.1, hlast⟩

/-- What stands between slashes in front of the last segment is a segment of options. -/
theorem mem_split_front {x y word : String}
    (h : pathOf segments last = x ++ "/" ++ y) (hword : word ∈ split '/' x) :
    ∃ segment : OptionSegment, segment.val = word := by
  have hparts : split '/' x ++ split '/' y =
      segments.map Subtype.val ++ [last] := by
    rw [← split_pathOf hlast, h]
    exact (split_append x y).symm
  have hfront := congrArg List.dropLast hparts
  rw [List.dropLast_append_of_ne_nil (split_ne_nil _ _), List.dropLast_concat] at hfront
  have hsegment : word ∈ segments.map Subtype.val := hfront ▸ List.mem_append_left _ hword
  obtain ⟨segment, -, rfl⟩ := List.mem_map.mp hsegment
  exact ⟨segment, rfl⟩

/-- Neither the slash in front nor the delimiters of plain sources are found. -/
theorem parseURLPath_pathOf (hstart : start ∈ ["", "/"]) :
    codecs.parseURLPath (start ++ pathOf segments last) =
      codecs.parseEncoded (pathOf segments last) := by
  have hplain : ∀ x y, pathOf segments last = x ++ "/" ++ y → "plain" ∉ split '/' x := by
    intro x y hpath hword
    obtain ⟨segment, hsegment⟩ := mem_split_front hlast hpath hword
    exact segment.2.2.2 hsegment
  have htrim : trimPrefix (start ++ pathOf segments last) "/" = pathOf segments last := by
    simp only [List.mem_cons, List.not_mem_nil, or_false] at hstart
    rcases hstart with rfl | rfl
    · rw [String.empty_append, trimPrefix, if_neg]
      intro h
      obtain ⟨segment, hsegment⟩ := mem_split_front (x := "") hlast
        (append_trimPrefix h).symm (List.mem_singleton_self _)
      exact segment.2.1 hsegment
    · exact trimPrefix_append "/" _
  have hcut : cutText "/plain/" (pathOf segments last) = none := by
    refine Option.map_eq_none_iff.mpr (Option.eq_none_iff_forall_ne_some.mpr fun cut h => ?_)
    refine hplain (String.ofList cut.1 ++ "/" ++ "plain") (String.ofList cut.2) ?_ ?_
    · rw [← String.toList_inj, cutRunes_eq_some h]
      simp
    · exact (@split_append '/' _ "plain") ▸ List.mem_append_right _ (by decide)
  have hfront : ¬hasPrefix (pathOf segments last) "plain/" := fun h =>
    hplain "plain" _ (append_trimPrefix h).symm (by decide)
  simp only [parseURLPath, htrim, hcut, if_neg hfront, ite_eq_right_iff]
  intro hempty
  rw [hempty]
  rfl

end

theorem not_mem_encode (url : List Byte) : ∀ c ∈ ['/', '@', '.'],
    c ∉ (Base64.encodeToString url).toList := by
  intro c hc
  exact Base64.not_mem_encodeToString url (List.mem_append_left ['\r', '\n'] hc)

theorem decodeSource_encode :
    codecs.withBase64.decodeSource (Base64.encodeToString url) = some (codecs.text url) := by
  have hdecoded : codecs.withBase64.rawURLEncoding (Base64.encodeToString url) = some url :=
    Base64.decodeString_encodeToString url
  rw [decodeSource, hdecoded, Option.some_or, Option.some_or, Option.map_some]
  rfl

/-- What the path of options and an encoded source is read as, whatever the source. -/
theorem parseURLPath_encode (hstart : start ∈ ["", "/"]) :
    codecs.withBase64.parseURLPath (start ++ pathOf segments (Base64.encodeToString url)) =
      if url = [] then none
      else some ((cutLast '@' (codecs.text url)).elim (codecs.parsedOf segments url "")
        fun (source, extension) =>
          ⟨join "/" (segments.map Subtype.val), source,
            trimPrefix extension "."⟩) := by
  have hrune := not_mem_encode url
  rw [parseURLPath_pathOf (hrune '/' (by simp)) hstart]
  simp only [parseEncoded, split_pathOf (hrune '/' (by simp)), List.getLastD_concat,
    List.dropLast_concat, cutLast_of_not_mem (hrune '@' (by simp)),
    cutLast_of_not_mem (hrune '.' (by simp)), Option.getD_none,
    Base64.encodeToString_eq_empty_iff, decodeSource_encode, Option.map_some]
  cases cutLast '@' (codecs.text url) <;> rfl

/-- Options and source are read back exactly if the source is not empty and holds no `@`. -/
theorem roundTrips_iff (codecs : Codecs) (segments : List OptionSegment) (url : List Byte) :
    codecs.RoundTrips segments url ↔ url ≠ [] ∧ '@' ∉ (codecs.text url).toList := by
  constructor
  · intro h
    have hparse := (h "" (by simp)).1
    rw [parseURLPath_encode (by simp)] at hparse
    obtain ⟨hne, hparse⟩ := Option.ite_none_left_eq_some.mp hparse
    refine ⟨hne, fun hat => ?_⟩
    obtain ⟨source, extension, hcut, hshort⟩ := cutLast_of_mem hat
    rw [hcut] at hparse
    exact hshort (congrArg ParsedPath.sourceURL (Option.some_injective _ hparse))
  · rintro ⟨hne, hat⟩ start hstart
    refine ⟨?_, fun extension hextension => ?_⟩
    · rw [parseURLPath_encode hstart, if_neg hne, cutLast_of_not_mem hat, Option.elim_none]
    · have hlast : '/' ∉ (Base64.encodeToString url ++ "@" ++ extension).toList := by
        simp [not_mem_encode url '/', hextension '/' (by simp)]
      have hdot : ¬hasPrefix extension "." := by
        intro h
        refine hextension '.' (by simp) ?_
        rw [← append_trimPrefix h]
        simp
      rw [parseURLPath_pathOf hlast hstart]
      simp only [parseEncoded, split_pathOf hlast, List.getLastD_concat,
        List.dropLast_concat]
      rw [show "@" = String.singleton '@' from rfl,
        cutLast_append (hextension '@' (by simp))]
      simp [hne, trimPrefix, hdot, cutLast_of_not_mem hat,
        Base64.encodeToString_eq_empty_iff, decodeSource_encode, parsedOf]

/-- Bytes as the runes of the same numbers. -/
def sampleCodecs : Codecs where
  rawURLEncoding _ := none
  urlEncoding _ := none
  stdEncoding _ := none
  hex _ := none
  text bytes := String.ofList (bytes.map fun b => Char.ofNat b.toNat)
  pathUnescape _ := none
  hmac _ _ := []

/-- The source `a/b` behind one option. -/
theorem roundTrips_slash :
    Base64.encodeToString [0x61, 0x2f, 0x62] = "YS9i" ∧
    sampleCodecs.withBase64.parseURLPath "/w:10/YS9i@png" = some ⟨"w:10", "a/b", "png"⟩ ∧
    sampleCodecs.RoundTrips [⟨"w:10", by decide⟩] [0x61, 0x2f, 0x62] :=
  ⟨by decide +kernel, by decide +kernel,
    (roundTrips_iff sampleCodecs [⟨"w:10", by decide⟩] [0x61, 0x2f, 0x62]).mpr (by decide +kernel)⟩

/-- A name in front of a host is taken for the source, and the host for the extension. -/
theorem userinfo_lost : Base64.encodeToString [0x75, 0x40, 0x68] = "dUBo" ∧
    sampleCodecs.text [0x75, 0x40, 0x68] = "u@h" ∧
    sampleCodecs.withBase64.parseURLPath "/dUBo" = some ⟨"", "u", "h"⟩ := by
  decide +kernel

end Codecs

end Layr.Image
