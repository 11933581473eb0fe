/-!
# Characters that stand for others in names

In the name of a host a character may stand for another one, or for several: a wide letter for the narrow one, a capital
one for the small one, a number in a circle for its digits. Others do not count at all. The tables hold those that stand
for characters of ASCII; a character that stands for others beyond ASCII is left as it is.
-/

namespace Captioning.Host

/-- Characters that do not count, as closed ranges. -/
def ignoredRanges : List (Nat × Nat) := [
  (0xAD, 0xAD), (0x34F, 0x34F), (0x180B, 0x180D), (0x180F, 0x180F), (0x200B, 0x200B), (0x2060, 0x2060),
  (0x2064, 0x2064), (0xFE00, 0xFE0F), (0xFEFF, 0xFEFF), (0xE0100, 0xE01EF)]

/-- The first and the last of some characters in a row, for how many others each of them stands, and those others, one
after the other; behind the last of them it is the turn of the first again. -/
def standIns : List (Nat × Nat × Nat × String) := [
  (0xA0, 0xA0, 1, " "), (0xAA, 0xAA, 1, "a"), (0xB2, 0xB3, 1, "23"), (0xB9, 0xBA, 1, "1o"),
  (0x132, 0x133, 2, "ij"), (0x17F, 0x17F, 1, "s"), (0x1C7, 0x1CC, 2, "ljljljnjnjnj"), (0x1F1, 0x1F3, 2, "dz"),
  (0x2B0, 0x2B0, 1, "h"), (0x2B2, 0x2B3, 1, "jr"), (0x2B7, 0x2B8, 1, "wy"), (0x2E1, 0x2E3, 1, "lsx"),
  (0x37E, 0x37E, 1, ";"), (0x1D2C, 0x1D2C, 1, "a"), (0x1D2E, 0x1D2E, 1, "b"), (0x1D30, 0x1D31, 1, "de"),
  (0x1D33, 0x1D3A, 1, "ghijklmn"), (0x1D3C, 0x1D3C, 1, "o"), (0x1D3E, 0x1D43, 1, "prtuwa"),
  (0x1D47, 0x1D49, 1, "bde"), (0x1D4D, 0x1D4D, 1, "g"), (0x1D4F, 0x1D50, 1, "km"), (0x1D52, 0x1D52, 1, "o"),
  (0x1D56, 0x1D58, 1, "ptu"), (0x1D5B, 0x1D5B, 1, "v"), (0x1D62, 0x1D65, 1, "iruv"), (0x1D9C, 0x1D9C, 1, "c"),
  (0x1DA0, 0x1DA0, 1, "f"), (0x1DBB, 0x1DBB, 1, "z"), (0x1FEF, 0x1FEF, 1, "`"), (0x2000, 0x200A, 1, " "),
  (0x202F, 0x202F, 1, " "), (0x203C, 0x203C, 2, "!!"), (0x2047, 0x2049, 2, "???!!?"), (0x205F, 0x205F, 1, " "),
  (0x2070, 0x2071, 1, "0i"), (0x2074, 0x207A, 1, "456789+"), (0x207C, 0x208A, 1, "=()n0123456789+"),
  (0x208C, 0x208E, 1, "=()"), (0x2090, 0x2093, 1, "aeox"), (0x2095, 0x209C, 1, "hklmnpst"),
  (0x20A8, 0x20A8, 2, "rs"), (0x2100, 0x2101, 3, "a/ca/s"), (0x2102, 0x2102, 1, "c"),
  (0x2105, 0x2106, 3, "c/oc/u"), (0x210A, 0x210E, 1, "ghhhh"), (0x2110, 0x2113, 1, "iill"),
  (0x2115, 0x2115, 1, "n"), (0x2116, 0x2116, 2, "no"), (0x2119, 0x211D, 1, "pqrrr"), (0x2120, 0x2120, 2, "sm"),
  (0x2121, 0x2121, 3, "tel"), (0x2122, 0x2122, 2, "tm"), (0x2124, 0x2124, 1, "z"), (0x2128, 0x2128, 1, "z"),
  (0x212A, 0x212A, 1, "k"), (0x212C, 0x212D, 1, "bc"), (0x212F, 0x2131, 1, "eef"), (0x2133, 0x2134, 1, "mo"),
  (0x2139, 0x2139, 1, "i"), (0x213B, 0x213B, 3, "fax"), (0x2145, 0x2149, 1, "ddeij"), (0x2160, 0x2160, 1, "i"),
  (0x2161, 0x2161, 2, "ii"), (0x2162, 0x2162, 3, "iii"), (0x2163, 0x2163, 2, "iv"), (0x2164, 0x2164, 1, "v"),
  (0x2165, 0x2165, 2, "vi"), (0x2166, 0x2166, 3, "vii"), (0x2167, 0x2167, 4, "viii"),
  (0x2168, 0x2168, 2, "ix"), (0x2169, 0x2169, 1, "x"), (0x216A, 0x216A, 2, "xi"), (0x216B, 0x216B, 3, "xii"),
  (0x216C, 0x2170, 1, "lcdmi"), (0x2171, 0x2171, 2, "ii"), (0x2172, 0x2172, 3, "iii"),
  (0x2173, 0x2173, 2, "iv"), (0x2174, 0x2174, 1, "v"), (0x2175, 0x2175, 2, "vi"), (0x2176, 0x2176, 3, "vii"),
  (0x2177, 0x2177, 4, "viii"), (0x2178, 0x2178, 2, "ix"), (0x2179, 0x2179, 1, "x"), (0x217A, 0x217A, 2, "xi"),
  (0x217B, 0x217B, 3, "xii"), (0x217C, 0x217F, 1, "lcdm"), (0x2460, 0x2468, 1, "123456789"),
  (0x2469, 0x2473, 2, "1011121314151617181920"), (0x2474, 0x247C, 3, "(1)(2)(3)(4)(5)(6)(7)(8)(9)"),
  (0x247D, 0x2487, 4, "(10)(11)(12)(13)(14)(15)(16)(17)(18)(19)(20)"),
  (0x249C, 0x24B5, 3, "(a)(b)(c)(d)(e)(f)(g)(h)(i)(j)(k)(l)(m)(n)(o)(p)(q)(r)(s)(t)(u)(v)(w)(x)(y)(z)"),
  (0x24B6, 0x24EA, 1, "abcdefghijklmnopqrstuvwxyzabcdefghijklmnopqrstuvwxyz0"), (0x2A74, 0x2A74, 3, "::="),
  (0x2A75, 0x2A75, 2, "=="), (0x2A76, 0x2A76, 3, "==="), (0x2C7C, 0x2C7D, 1, "jv"), (0x3000, 0x3000, 1, " "),
  (0x3002, 0x3002, 1, "."), (0x3250, 0x3250, 3, "pte"), (0x3251, 0x325F, 2, "212223242526272829303132333435"),
  (0x32B1, 0x32BF, 2, "363738394041424344454647484950"), (0x32CC, 0x32CC, 2, "hg"), (0x32CD, 0x32CD, 3, "erg"),
  (0x32CE, 0x32CE, 2, "ev"), (0x32CF, 0x32CF, 3, "ltd"), (0x3371, 0x3371, 3, "hpa"),
  (0x3372, 0x3373, 2, "daau"), (0x3374, 0x3374, 3, "bar"), (0x3375, 0x3377, 2, "ovpcdm"),
  (0x3378, 0x3379, 3, "dm2dm3"), (0x337A, 0x337A, 2, "iu"), (0x3380, 0x3381, 2, "pana"),
  (0x3383, 0x3387, 2, "makakbmbgb"), (0x3388, 0x3388, 3, "cal"), (0x3389, 0x3389, 4, "kcal"),
  (0x338A, 0x338B, 2, "pfnf"), (0x338E, 0x3390, 2, "mgkghz"), (0x3391, 0x3394, 3, "khzmhzghzthz"),
  (0x3396, 0x339A, 2, "mldlklfmnm"), (0x339C, 0x339E, 2, "mmcmkm"), (0x339F, 0x33A0, 3, "mm2cm2"),
  (0x33A1, 0x33A1, 2, "m2"), (0x33A2, 0x33A4, 3, "km2mm3cm3"), (0x33A5, 0x33A5, 2, "m3"),
  (0x33A6, 0x33A6, 3, "km3"), (0x33A9, 0x33A9, 2, "pa"), (0x33AA, 0x33AD, 3, "kpampagparad"),
  (0x33B0, 0x33B1, 2, "psns"), (0x33B3, 0x33B5, 2, "mspvnv"), (0x33B7, 0x33BB, 2, "mvkvmvpwnw"),
  (0x33BD, 0x33BF, 2, "mwkw"), (0x33C3, 0x33C5, 2, "bqcccd"), (0x33C8, 0x33D1, 2, "dbgyhahpinkkkmktlmln"),
  (0x33D2, 0x33D2, 3, "log"), (0x33D3, 0x33D4, 2, "lxmb"), (0x33D5, 0x33D6, 3, "milmol"),
  (0x33D7, 0x33D7, 2, "ph"), (0x33D9, 0x33D9, 3, "ppm"), (0x33DA, 0x33DD, 2, "prsrsvwb"),
  (0x33FF, 0x33FF, 3, "gal"), (0xA7F2, 0xA7F4, 1, "cfq"), (0xFB00, 0xFB02, 2, "fffifl"),
  (0xFB03, 0xFB04, 3, "ffiffl"), (0xFB05, 0xFB06, 2, "st"), (0xFB29, 0xFB29, 1, "+"), (0xFE10, 0xFE10, 1, ","),
  (0xFE13, 0xFE16, 1, ":;!?"), (0xFE33, 0xFE38, 1, "__()\x7b\x7d"), (0xFE47, 0xFE48, 1, "[]"),
  (0xFE4D, 0xFE50, 1, "___,"), (0xFE54, 0xFE57, 1, ";:?!"), (0xFE59, 0xFE5C, 1, "()\x7b\x7d"),
  (0xFE5F, 0xFE66, 1, "#&*+-<>="), (0xFE68, 0xFE6B, 1, "\\$%@"),
  (0xFF01, 0xFF40, 1, "!\"#$%&'()*+,-./0123456789:;<=>?@abcdefghijklmnopqrstuvwxyz[\\]^_`"),
  (0xFF41, 0xFF5E, 1, "abcdefghijklmnopqrstuvwxyz\x7b|\x7d~"),
  (0xFF61, 0xFF61, 1, "."), (0x107A5, 0x107A5, 1, "q"), (0x1D400, 0x1D454, 1, "abcdefghijklmnopqrstuvwxyz"),
  (0x1D456, 0x1D49C, 1, "ijklmnopqrstuvwxyzabcdefgh"), (0x1D49E, 0x1D49F, 1, "cd"), (0x1D4A2, 0x1D4A2, 1, "g"),
  (0x1D4A5, 0x1D4A6, 1, "jk"), (0x1D4A9, 0x1D4AC, 1, "nopq"), (0x1D4AE, 0x1D4B9, 1, "stuvwxyzabcd"),
  (0x1D4BB, 0x1D4BB, 1, "f"), (0x1D4BD, 0x1D4C3, 1, "hijklmn"),
  (0x1D4C5, 0x1D505, 1, "pqrstuvwxyzabcdefghijklmno"), (0x1D507, 0x1D50A, 1, "defg"),
  (0x1D50D, 0x1D514, 1, "jklmnopq"), (0x1D516, 0x1D51C, 1, "stuvwxy"),
  (0x1D51E, 0x1D539, 1, "abcdefghijklmnopqrstuvwxyz"), (0x1D53B, 0x1D53E, 1, "defg"),
  (0x1D540, 0x1D544, 1, "ijklm"), (0x1D546, 0x1D546, 1, "o"), (0x1D54A, 0x1D550, 1, "stuvwxy"),
  (0x1D552, 0x1D6A3, 1, "abcdefghijklmnopqrstuvwxyz"), (0x1D7CE, 0x1D7FF, 1, "0123456789"),
  (0x1F101, 0x1F10A, 2, "0,1,2,3,4,5,6,7,8,9,"),
  (0x1F110, 0x1F129, 3, "(a)(b)(c)(d)(e)(f)(g)(h)(i)(j)(k)(l)(m)(n)(o)(p)(q)(r)(s)(t)(u)(v)(w)(x)(y)(z)"),
  (0x1F12B, 0x1F12C, 1, "cr"), (0x1F12D, 0x1F12E, 2, "cdwz"),
  (0x1F130, 0x1F149, 1, "abcdefghijklmnopqrstuvwxyz"), (0x1F14A, 0x1F14D, 2, "hvmvsdss"),
  (0x1F14E, 0x1F14E, 3, "ppv"), (0x1F14F, 0x1F14F, 2, "wc"), (0x1F16A, 0x1F16C, 2, "mcmdmr"),
  (0x1F190, 0x1F190, 2, "dj"), (0x1FBF0, 0x1FBF9, 1, "0123456789")]

/-- What a character stands for in a name. -/
def standsFor (c : Char) : List Char :=
  let isIn := fun (low high : Nat) => low ≤ c.toNat && c.toNat ≤ high
  if c.toNat < 128 then [c.toLower]
  else if ignoredRanges.any fun (low, high) => isIn low high then []
  else match standIns.find? fun (low, high, _) => isIn low high with
    | some (low, _, size, others) =>
      (others.toList.drop ((c.toNat - low) * size % others.length)).take size
    | none => [c]

/-- What a name stands for. -/
def mapped (name : List Char) : List Char :=
  name.flatMap standsFor

end Captioning.Host
