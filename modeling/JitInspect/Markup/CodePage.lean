import JitInspect.Markup.CodePage.Standard
import JitInspect.Markup.CodePage.Terminal

/-!
# Encodings with a name

A name that is not one of the built-in encodings is looked up among those that are known besides. It
can be used when the encoding is a code page; of the others it is known why they cannot be used.
-/

namespace JitInspect

namespace Markup

namespace CodePage

/-- The names of the page that has the first 256 characters in their order. -/
def latinNames : EncodingNames :=
  ⟨["charmap", "latin_1", "raw_unicode_escape", "unicode_escape"],
   ["8859", "cp819", "csisolatin1", "ibm819", "iso8859", "iso8859_1", "iso_8859_1",
    "iso_8859_1_1987", "iso_ir_100", "l1", "latin", "latin1"]⟩

/-- The names under which only the lower half can be read. -/
def asciiNames : EncodingNames :=
  ⟨["ascii", "iso2022_jp", "iso2022_jp_1", "iso2022_jp_2", "iso2022_jp_2004", "iso2022_jp_3",
    "iso2022_jp_ext", "utf_8", "utf_8_sig"],
   ["646", "ansi_x3.4_1968", "ansi_x3.4_1986", "ansi_x3_4_1968", "cp367", "cp65001", "csascii",
    "csiso2022jp", "ibm367", "iso2022jp", "iso2022jp_1", "iso2022jp_2", "iso2022jp_2004",
    "iso2022jp_3", "iso2022jp_ext", "iso646_us", "iso_2022_jp", "iso_2022_jp_1", "iso_2022_jp_2",
    "iso_2022_jp_2004", "iso_2022_jp_3", "iso_2022_jp_ext", "iso_646.irv_1991", "iso_ir_6", "u8",
    "us", "us_ascii", "utf", "utf8", "utf8_ucs2", "utf8_ucs4"]⟩

/-- The names under which the lower half without the tilde can be read. -/
def tildeNames : EncodingNames := ⟨["hz"], ["hz_gb", "hz_gb_2312", "hzgb"]⟩

/-- All code pages that are given by a table. -/
def all : List NamedPage :=
  standardPages ++ windowsPages ++ nationalPages ++ screenPages ++ macintoshPages

end CodePage

/-- What is known of an encoding that is not built in. -/
inductive NamedEncoding where
  | page (p : CodePage)
  /-- It takes several bytes for a character. -/
  | wide
  /-- It does not agree with ASCII where markup needs it. -/
  | foreign
  /-- It encodes bytes, not characters. -/
  | transform
  /-- It has no characters that could be put for faulty bytes. -/
  | unforgiving
  /-- It stands for no encoding at all. -/
  | undefined
  /-- It has parts that must be in ASCII. -/
  | asciiOnly
  | unknown

namespace NamedEncoding

/-- The names of encodings that take several bytes for a character. -/
def wideNames : EncodingNames :=
  ⟨["big5", "big5hkscs", "cp932", "cp949", "cp950", "euc_jis_2004", "euc_jisx0213", "euc_jp",
    "euc_kr", "gb18030", "gb2312", "gbk", "iso2022_kr", "johab", "shift_jis", "shift_jis_2004",
    "shift_jisx0213", "utf_16", "utf_16_be", "utf_16_le", "utf_32", "utf_32_be", "utf_32_le",
    "utf_7"],
   ["932", "936", "949", "950", "big5_hkscs", "big5_tw", "chinese", "cp1361", "cp936", "csbig5",
    "csiso2022kr", "csiso58gb231280", "csshiftjis", "euc_cn", "euc_jis2004", "euccn",
    "eucgb2312_cn", "eucjis2004", "eucjisx0213", "eucjp", "euckr", "gb18030_2000", "gb2312_1980",
    "gb2312_80", "hkscs", "iso2022kr", "iso_2022_kr", "iso_ir_58", "jisx0213", "korean",
    "ks_c_5601", "ks_c_5601_1987", "ks_x_1001", "ksc5601", "ksx1001", "ms1361", "ms932", "ms936",
    "ms949", "ms950", "ms_kanji", "mskanji", "s_jis", "s_jis_2004", "s_jisx0213", "shiftjis",
    "shiftjis2004", "shiftjisx0213", "sjis", "sjis_2004", "sjisx0213", "u16", "u32", "u7",
    "u_jis", "uhc", "ujis", "unicode_1_1_utf_7", "unicodebigunmarked", "unicodelittleunmarked",
    "utf16", "utf32", "utf7", "utf_16be", "utf_16le", "utf_32be", "utf_32le", "x_mac_japanese",
    "x_mac_korean", "x_mac_simp_chinese", "x_mac_trad_chinese"]⟩

/-- The names of encodings that do not agree with ASCII. -/
def foreignNames : EncodingNames :=
  ⟨["cp037", "cp1026", "cp1140", "cp273", "cp424", "cp500", "cp864", "cp875", "mac_arabic",
    "mac_farsi"],
   ["037", "1026", "1140", "273", "424", "500", "864", "csibm037", "csibm1026", "csibm273",
    "csibm424", "csibm500", "csibm864", "ebcdic_cp_be", "ebcdic_cp_ca", "ebcdic_cp_ch",
    "ebcdic_cp_he", "ebcdic_cp_nl", "ebcdic_cp_us", "ebcdic_cp_wt", "ibm037", "ibm039",
    "ibm1026", "ibm1140", "ibm273", "ibm424", "ibm500", "ibm864"]⟩

/-- The names of encodings of bytes. -/
def transformNames : EncodingNames :=
  ⟨["base64_codec", "bz2_codec", "hex_codec", "quopri_codec", "rot_13", "uu_codec", "zlib_codec"],
   ["base64", "base_64", "bz2", "hex", "quopri", "quoted_printable", "quotedprintable", "rot13",
    "uu", "zip", "zlib"]⟩

/-- The encodings that are known by their names alone. -/
def listed : List (EncodingNames × NamedEncoding) :=
  [(CodePage.asciiNames, page .ascii), (CodePage.latinNames, page .latin),
   (CodePage.tildeNames, page { CodePage.ascii with lacking := ['~'] }), (wideNames, wide),
   (foreignNames, foreign), (transformNames, transform), (⟨["idna"], []⟩, unforgiving),
   (⟨["undefined"], []⟩, undefined), (⟨["punycode"], []⟩, asciiOnly)]

/-- Looks an encoding up by its name. -/
def ofName (written : Text) : NamedEncoding :=
  let normal := EncodingNames.normalize written
  match listed.find? fun e => e.1.includes normal with
  | some (_, e) => e
  | none =>
    match CodePage.all.find? fun p => p.names.includes normal with
    | some p => page ⟨p.upper.toList, []⟩
    | none => unknown

end NamedEncoding

end Markup

end JitInspect
