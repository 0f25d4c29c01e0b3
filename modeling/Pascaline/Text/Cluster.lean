import Pascaline.Text.CodeTable
import Pascaline.Text.Utf8

/-!
# Clusters

What a reader sees as one character may be several code points: a letter with its marks, the
letters of a Hangul syllable, a flag, or pictures joined into one. The boundaries follow the
extended grapheme cluster rules of Unicode 15.0.
-/

namespace Pascaline

/-- The role of a code point in a cluster. -/
inductive ClusterRole where
  | other | control | extend | prepend | spacing | lead | vowel | trail | leadVowel
  | leadVowelTrail | flag | joiner
deriving Repr, DecidableEq

namespace ClusterRole

/-- Rows `a-b:k`; the roles are numbered in the order `control`, `extend`, `prepend`, `spacing`,
`lead`, `vowel`, `trail`, `flag`, `joiner`. -/
private def roleTable : CodeTable := CodeTable.ofText
  "0-9:1 b-c:1 e-1f:1 7f-9f:1 ad-ad:1 300-36f:2 483-489:2 591-5bd:2 5bf-5bf:2 5c1-5c2:2 5c4-5c5:2
  5c7-5c7:2 600-605:3 610-61a:2 61c-61c:1 64b-65f:2 670-670:2 6d6-6dc:2 6dd-6dd:3 6df-6e4:2
  6e7-6e8:2 6ea-6ed:2 70f-70f:3 711-711:2 730-74a:2 7a6-7b0:2 7eb-7f3:2 7fd-7fd:2 816-819:2
  81b-823:2 825-827:2 829-82d:2 859-85b:2 890-891:3 898-89f:2 8ca-8e1:2 8e2-8e2:3 8e3-902:2
  903-903:4 93a-93a:2 93b-93b:4 93c-93c:2 93e-940:4 941-948:2 949-94c:4 94d-94d:2 94e-94f:4
  951-957:2 962-963:2 981-981:2 982-983:4 9bc-9bc:2 9be-9be:2 9bf-9c0:4 9c1-9c4:2 9c7-9c8:4
  9cb-9cc:4 9cd-9cd:2 9d7-9d7:2 9e2-9e3:2 9fe-9fe:2 a01-a02:2 a03-a03:4 a3c-a3c:2 a3e-a40:4
  a41-a42:2 a47-a48:2 a4b-a4d:2 a51-a51:2 a70-a71:2 a75-a75:2 a81-a82:2 a83-a83:4 abc-abc:2
  abe-ac0:4 ac1-ac5:2 ac7-ac8:2 ac9-ac9:4 acb-acc:4 acd-acd:2 ae2-ae3:2 afa-aff:2 b01-b01:2
  b02-b03:4 b3c-b3c:2 b3e-b3f:2 b40-b40:4 b41-b44:2 b47-b48:4 b4b-b4c:4 b4d-b4d:2 b55-b57:2
  b62-b63:2 b82-b82:2 bbe-bbe:2 bbf-bbf:4 bc0-bc0:2 bc1-bc2:4 bc6-bc8:4 bca-bcc:4 bcd-bcd:2
  bd7-bd7:2 c00-c00:2 c01-c03:4 c04-c04:2 c3c-c3c:2 c3e-c40:2 c41-c44:4 c46-c48:2 c4a-c4d:2
  c55-c56:2 c62-c63:2 c81-c81:2 c82-c83:4 cbc-cbc:2 cbe-cbe:4 cbf-cbf:2 cc0-cc1:4 cc2-cc2:2
  cc3-cc4:4 cc6-cc6:2 cc7-cc8:4 cca-ccb:4 ccc-ccd:2 cd5-cd6:2 ce2-ce3:2 cf3-cf3:4 d00-d01:2
  d02-d03:4 d3b-d3c:2 d3e-d3e:2 d3f-d40:4 d41-d44:2 d46-d48:4 d4a-d4c:4 d4d-d4d:2 d4e-d4e:3
  d57-d57:2 d62-d63:2 d81-d81:2 d82-d83:4 dca-dca:2 dcf-dcf:2 dd0-dd1:4 dd2-dd4:2 dd6-dd6:2
  dd8-dde:4 ddf-ddf:2 df2-df3:4 e31-e31:2 e33-e33:4 e34-e3a:2 e47-e4e:2 eb1-eb1:2 eb3-eb3:4
  eb4-ebc:2 ec8-ece:2 f18-f19:2 f35-f35:2 f37-f37:2 f39-f39:2 f3e-f3f:4 f71-f7e:2 f7f-f7f:4
  f80-f84:2 f86-f87:2 f8d-f97:2 f99-fbc:2 fc6-fc6:2 102d-1030:2 1031-1031:4 1032-1037:2
  1039-103a:2 103b-103c:4 103d-103e:2 1056-1057:4 1058-1059:2 105e-1060:2 1071-1074:2
  1082-1082:2 1084-1084:4 1085-1086:2 108d-108d:2 109d-109d:2 1100-115f:5 1160-11a7:6
  11a8-11ff:7 135d-135f:2 1712-1714:2 1715-1715:4 1732-1733:2 1734-1734:4 1752-1753:2
  1772-1773:2 17b4-17b5:2 17b6-17b6:4 17b7-17bd:2 17be-17c5:4 17c6-17c6:2 17c7-17c8:4
  17c9-17d3:2 17dd-17dd:2 180b-180d:2 180e-180e:1 180f-180f:2 1885-1886:2 18a9-18a9:2
  1920-1922:2 1923-1926:4 1927-1928:2 1929-192b:4 1930-1931:4 1932-1932:2 1933-1938:4
  1939-193b:2 1a17-1a18:2 1a19-1a1a:4 1a1b-1a1b:2 1a55-1a55:4 1a56-1a56:2 1a57-1a57:4
  1a58-1a5e:2 1a60-1a60:2 1a62-1a62:2 1a65-1a6c:2 1a6d-1a72:4 1a73-1a7c:2 1a7f-1a7f:2
  1ab0-1ace:2 1b00-1b03:2 1b04-1b04:4 1b34-1b3a:2 1b3b-1b3b:4 1b3c-1b3c:2 1b3d-1b41:4
  1b42-1b42:2 1b43-1b44:4 1b6b-1b73:2 1b80-1b81:2 1b82-1b82:4 1ba1-1ba1:4 1ba2-1ba5:2
  1ba6-1ba7:4 1ba8-1ba9:2 1baa-1baa:4 1bab-1bad:2 1be6-1be6:2 1be7-1be7:4 1be8-1be9:2
  1bea-1bec:4 1bed-1bed:2 1bee-1bee:4 1bef-1bf1:2 1bf2-1bf3:4 1c24-1c2b:4 1c2c-1c33:2
  1c34-1c35:4 1c36-1c37:2 1cd0-1cd2:2 1cd4-1ce0:2 1ce1-1ce1:4 1ce2-1ce8:2 1ced-1ced:2
  1cf4-1cf4:2 1cf7-1cf7:4 1cf8-1cf9:2 1dc0-1dff:2 200b-200b:1 200c-200c:2 200d-200d:9
  200e-200f:1 2028-202e:1 2060-206f:1 20d0-20f0:2 2cef-2cf1:2 2d7f-2d7f:2 2de0-2dff:2
  302a-302f:2 3099-309a:2 a66f-a672:2 a674-a67d:2 a69e-a69f:2 a6f0-a6f1:2 a802-a802:2
  a806-a806:2 a80b-a80b:2 a823-a824:4 a825-a826:2 a827-a827:4 a82c-a82c:2 a880-a881:4
  a8b4-a8c3:4 a8c4-a8c5:2 a8e0-a8f1:2 a8ff-a8ff:2 a926-a92d:2 a947-a951:2 a952-a953:4
  a960-a97c:5 a980-a982:2 a983-a983:4 a9b3-a9b3:2 a9b4-a9b5:4 a9b6-a9b9:2 a9ba-a9bb:4
  a9bc-a9bd:2 a9be-a9c0:4 a9e5-a9e5:2 aa29-aa2e:2 aa2f-aa30:4 aa31-aa32:2 aa33-aa34:4
  aa35-aa36:2 aa43-aa43:2 aa4c-aa4c:2 aa4d-aa4d:4 aa7c-aa7c:2 aab0-aab0:2 aab2-aab4:2
  aab7-aab8:2 aabe-aabf:2 aac1-aac1:2 aaeb-aaeb:4 aaec-aaed:2 aaee-aaef:4 aaf5-aaf5:4
  aaf6-aaf6:2 abe3-abe4:4 abe5-abe5:2 abe6-abe7:4 abe8-abe8:2 abe9-abea:4 abec-abec:4
  abed-abed:2 d7b0-d7c6:6 d7cb-d7fb:7 fb1e-fb1e:2 fe00-fe0f:2 fe20-fe2f:2 feff-feff:1
  ff9e-ff9f:2 fff0-fffb:1 101fd-101fd:2 102e0-102e0:2 10376-1037a:2 10a01-10a03:2 10a05-10a06:2
  10a0c-10a0f:2 10a38-10a3a:2 10a3f-10a3f:2 10ae5-10ae6:2 10d24-10d27:2 10eab-10eac:2
  10efd-10eff:2 10f46-10f50:2 10f82-10f85:2 11000-11000:4 11001-11001:2 11002-11002:4
  11038-11046:2 11070-11070:2 11073-11074:2 1107f-11081:2 11082-11082:4 110b0-110b2:4
  110b3-110b6:2 110b7-110b8:4 110b9-110ba:2 110bd-110bd:3 110c2-110c2:2 110cd-110cd:3
  11100-11102:2 11127-1112b:2 1112c-1112c:4 1112d-11134:2 11145-11146:4 11173-11173:2
  11180-11181:2 11182-11182:4 111b3-111b5:4 111b6-111be:2 111bf-111c0:4 111c2-111c3:3
  111c9-111cc:2 111ce-111ce:4 111cf-111cf:2 1122c-1122e:4 1122f-11231:2 11232-11233:4
  11234-11234:2 11235-11235:4 11236-11237:2 1123e-1123e:2 11241-11241:2 112df-112df:2
  112e0-112e2:4 112e3-112ea:2 11300-11301:2 11302-11303:4 1133b-1133c:2 1133e-1133e:2
  1133f-1133f:4 11340-11340:2 11341-11344:4 11347-11348:4 1134b-1134d:4 11357-11357:2
  11362-11363:4 11366-1136c:2 11370-11374:2 11435-11437:4 11438-1143f:2 11440-11441:4
  11442-11444:2 11445-11445:4 11446-11446:2 1145e-1145e:2 114b0-114b0:2 114b1-114b2:4
  114b3-114b8:2 114b9-114b9:4 114ba-114ba:2 114bb-114bc:4 114bd-114bd:2 114be-114be:4
  114bf-114c0:2 114c1-114c1:4 114c2-114c3:2 115af-115af:2 115b0-115b1:4 115b2-115b5:2
  115b8-115bb:4 115bc-115bd:2 115be-115be:4 115bf-115c0:2 115dc-115dd:2 11630-11632:4
  11633-1163a:2 1163b-1163c:4 1163d-1163d:2 1163e-1163e:4 1163f-11640:2 116ab-116ab:2
  116ac-116ac:4 116ad-116ad:2 116ae-116af:4 116b0-116b5:2 116b6-116b6:4 116b7-116b7:2
  1171d-1171f:2 11722-11725:2 11726-11726:4 11727-1172b:2 1182c-1182e:4 1182f-11837:2
  11838-11838:4 11839-1183a:2 11930-11930:2 11931-11935:4 11937-11938:4 1193b-1193c:2
  1193d-1193d:4 1193e-1193e:2 1193f-1193f:3 11940-11940:4 11941-11941:3 11942-11942:4
  11943-11943:2 119d1-119d3:4 119d4-119d7:2 119da-119db:2 119dc-119df:4 119e0-119e0:2
  119e4-119e4:4 11a01-11a0a:2 11a33-11a38:2 11a39-11a39:4 11a3a-11a3a:3 11a3b-11a3e:2
  11a47-11a47:2 11a51-11a56:2 11a57-11a58:4 11a59-11a5b:2 11a84-11a89:3 11a8a-11a96:2
  11a97-11a97:4 11a98-11a99:2 11c2f-11c2f:4 11c30-11c36:2 11c38-11c3d:2 11c3e-11c3e:4
  11c3f-11c3f:2 11c92-11ca7:2 11ca9-11ca9:4 11caa-11cb0:2 11cb1-11cb1:4 11cb2-11cb3:2
  11cb4-11cb4:4 11cb5-11cb6:2 11d31-11d36:2 11d3a-11d3a:2 11d3c-11d3d:2 11d3f-11d45:2
  11d46-11d46:3 11d47-11d47:2 11d8a-11d8e:4 11d90-11d91:2 11d93-11d94:4 11d95-11d95:2
  11d96-11d96:4 11d97-11d97:2 11ef3-11ef4:2 11ef5-11ef6:4 11f00-11f01:2 11f02-11f02:3
  11f03-11f03:4 11f34-11f35:4 11f36-11f3a:2 11f3e-11f3f:4 11f40-11f40:2 11f41-11f41:4
  11f42-11f42:2 13430-1343f:1 13440-13440:2 13447-13455:2 16af0-16af4:2 16b30-16b36:2
  16f4f-16f4f:2 16f51-16f87:4 16f8f-16f92:2 16fe4-16fe4:2 16ff0-16ff1:4 1bc9d-1bc9e:2
  1bca0-1bca3:1 1cf00-1cf2d:2 1cf30-1cf46:2 1d165-1d165:2 1d166-1d166:4 1d167-1d169:2
  1d16d-1d16d:4 1d16e-1d172:2 1d173-1d17a:1 1d17b-1d182:2 1d185-1d18b:2 1d1aa-1d1ad:2
  1d242-1d244:2 1da00-1da36:2 1da3b-1da6c:2 1da75-1da75:2 1da84-1da84:2 1da9b-1da9f:2
  1daa1-1daaf:2 1e000-1e006:2 1e008-1e018:2 1e01b-1e021:2 1e023-1e024:2 1e026-1e02a:2
  1e08f-1e08f:2 1e130-1e136:2 1e2ae-1e2ae:2 1e2ec-1e2ef:2 1e4ec-1e4ef:2 1e8d0-1e8d6:2
  1e944-1e94a:2 1f1e6-1f1ff:8 1f3fb-1f3ff:2 e0000-e001f:1 e0020-e007f:2 e0080-e00ff:1
  e0100-e01ef:2 e01f0-e0fff:1"

/-- Pictures that a joiner can join. -/
private def pictureTable : CodeTable := CodeTable.ofText
  "a9 ae 203c 2049 2122 2139 2194-2199 21a9-21aa 231a-231b 2328 2388 23cf 23e9-23f3 23f8-23fa
  24c2 25aa-25ab 25b6 25c0 25fb-25fe 2600-2605 2607-2612 2614-2685 2690-2705 2708-2712 2714 2716
  271d 2721 2728 2733-2734 2744 2747 274c 274e 2753-2755 2757 2763-2767 2795-2797 27a1 27b0 27bf
  2934-2935 2b05-2b07 2b1b-2b1c 2b50 2b55 3030 303d 3297 3299 1f000-1f0ff 1f10d-1f10f 1f12f
  1f16c-1f171 1f17e-1f17f 1f18e 1f191-1f19a 1f1ad-1f1e5 1f201-1f20f 1f21a 1f22f 1f232-1f23a
  1f23c-1f23f 1f249-1f3fa 1f400-1f53d 1f546-1f64f 1f680-1f6ff 1f774-1f77f 1f7d5-1f7ff
  1f80c-1f80f 1f848-1f84f 1f85a-1f85f 1f888-1f88f 1f8ae-1f8ff 1f90c-1f93a 1f93c-1f945
  1f947-1faff 1fc00-1fffd"

def ofNumber : Nat → ClusterRole
  | 1 => control
  | 2 => extend
  | 3 => prepend
  | 4 => spacing
  | 5 => lead
  | 6 => vowel
  | 7 => trail
  | 8 => flag
  | 9 => joiner
  | _ => other

def ofChar (c : Char) : ClusterRole :=
  let n := c.toNat
  if 0xac00 ≤ n && n < 0xd7a4 then
    if (n - 0xac00) % 28 = 0 then leadVowel else leadVowelTrail
  else if n = 10 || n = 13 then control
  else match roleTable.row n with
    | [_, hi, k] => if n ≤ hi then ofNumber k else other
    | _ => other

def isPicture (c : Char) : Bool := pictureTable.contains c.toNat

end ClusterRole

namespace Cluster

/-- What the boundary rules remember of the text before: the last character, whether an odd number
of flag letters ends it, and whether a picture, maybe with marks, ends it, with a joiner behind it
or without. -/
structure Before where
  last : Char
  oddFlags : Bool
  picture : Bool
  joined : Bool

def Before.start (c : Char) : Before :=
  ⟨c, ClusterRole.ofChar c = .flag, ClusterRole.isPicture c, false⟩

def Before.next (b : Before) (c : Char) : Before :=
  let r := ClusterRole.ofChar c
  ⟨c, r = .flag && !b.oddFlags, ClusterRole.isPicture c || b.picture && r = .extend,
    b.picture && r = .joiner⟩

/-- Whether the character continues the cluster. -/
def joins (b : Before) (c : Char) : Bool :=
  let l := ClusterRole.ofChar b.last
  let r := ClusterRole.ofChar c
  if b.last = '\r' && c = '\n' then true
  else if l = .control || r = .control then false
  else if l = .lead && (r = .lead || r = .vowel || r = .leadVowel || r = .leadVowelTrail) then true
  else if (l = .leadVowel || l = .vowel) && (r = .vowel || r = .trail) then true
  else if (l = .leadVowelTrail || l = .trail) && r = .trail then true
  else if r = .extend || r = .joiner || r = .spacing || l = .prepend then true
  else if b.joined && ClusterRole.isPicture c then true
  else l = .flag && r = .flag && b.oddFlags

/-! ## Pieces

Boundaries are looked for between pieces: whole characters, or malformed bytes, which count as a
character of no role. A sequence that the end of the text cuts off belongs to what stands before
it, with all that follows. -/

/-- A character, or malformed bytes in its place, and the bytes it takes. -/
structure Piece where
  char : Char
  bytes : Bytes

/-- The bytes that a lead byte announces, itself included. -/
def announced (a : UInt8) : Nat :=
  if a < 0xc2 then 1 else if a < 0xe0 then 2 else if a < 0xf0 then 3 else if a < 0xf8 then 4 else 1

/-- The lead byte and the continuation bytes behind it, at most as many as announced. -/
def pieceWidth (a : UInt8) (rest : Bytes) : Nat :=
  1 + ((rest.take (announced a - 1)).takeWhile (fun b => 0x80 ≤ b && b < 0xc0)).length

/-- The pieces of a text, and the cut-off sequence at its end. -/
def pieces : Bytes → List Piece × Bytes
  | [] => ([], [])
  | a :: rest =>
    if rest.length + 1 < announced a then ([], a :: rest)
    else
      let n := pieceWidth a rest
      let r := pieces (rest.drop (n - 1))
      (⟨(Utf8.decode a rest).char, a :: rest.take (n - 1)⟩ :: r.1, r.2)
termination_by s => s.length
decreasing_by simp only [List.length_drop, List.length_cons]; omega

/-- The rest of a cluster and the pieces after it. -/
def takeCluster (b : Before) : List Piece → Bytes × List Piece
  | [] => ([], [])
  | p :: ps =>
    if joins b p.char then
      let (cluster, rest) := takeCluster (b.next p.char) ps
      (p.bytes ++ cluster, rest)
    else ([], p :: ps)

theorem takeCluster_length_le (b : Before) (ps : List Piece) :
    (takeCluster b ps).2.length ≤ ps.length := by
  induction ps generalizing b with
  | nil => simp [takeCluster]
  | cons p ps ih =>
    unfold takeCluster
    split
    · simpa using Nat.le_succ_of_le (ih (b.next p.char))
    · simp

/-- The clusters of pieces. -/
def group : List Piece → List Bytes
  | [] => []
  | p :: ps =>
    let r := takeCluster (.start p.char) ps
    (p.bytes ++ r.1) :: group r.2
termination_by ps => ps.length
decreasing_by
  have := takeCluster_length_le (.start p.char) ps
  simp only [List.length_cons]
  omega

/-- The clusters of a text. -/
def split (s : Bytes) : List Bytes :=
  let (ps, cut) := pieces s
  let clusters := group ps
  if cut.isEmpty then clusters
  else match clusters.getLast? with
    | some last => clusters.dropLast ++ [last ++ cut]
    | none => [cut]

end Cluster

end Pascaline
