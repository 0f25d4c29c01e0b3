import Pascaline.Text.CodeTable

/-!
# Data of the canonical form

Combining classes, canonical decompositions and primary composites of Unicode 15.0. Hangul
syllables are absent: they are computed.
-/

namespace Pascaline.Canonical

-- The lists of data are long.
set_option maxRecDepth 10000

/-- Rows `a-b:k`: the code points from `a` to `b` have combining class `k`. -/
def classTable : CodeTable := CodeTable.ofText
  "300-314:e6 315-315:e8 316-319:dc 31a-31a:e8 31b-31b:d8 31c-320:dc 321-322:ca 323-326:dc
  327-328:ca 329-333:dc 334-338:1 339-33c:dc 33d-344:e6 345-345:f0 346-346:e6 347-349:dc
  34a-34c:e6 34d-34e:dc 350-352:e6 353-356:dc 357-357:e6 358-358:e8 359-35a:dc 35b-35b:e6
  35c-35c:e9 35d-35e:ea 35f-35f:e9 360-361:ea 362-362:e9 363-36f:e6 483-487:e6 591-591:dc
  592-595:e6 596-596:dc 597-599:e6 59a-59a:de 59b-59b:dc 59c-5a1:e6 5a2-5a7:dc 5a8-5a9:e6
  5aa-5aa:dc 5ab-5ac:e6 5ad-5ad:de 5ae-5ae:e4 5af-5af:e6 5b0-5b0:a 5b1-5b1:b 5b2-5b2:c 5b3-5b3:d
  5b4-5b4:e 5b5-5b5:f 5b6-5b6:10 5b7-5b7:11 5b8-5b8:12 5b9-5ba:13 5bb-5bb:14 5bc-5bc:15
  5bd-5bd:16 5bf-5bf:17 5c1-5c1:18 5c2-5c2:19 5c4-5c4:e6 5c5-5c5:dc 5c7-5c7:12 610-617:e6
  618-618:1e 619-619:1f 61a-61a:20 64b-64b:1b 64c-64c:1c 64d-64d:1d 64e-64e:1e 64f-64f:1f
  650-650:20 651-651:21 652-652:22 653-654:e6 655-656:dc 657-65b:e6 65c-65c:dc 65d-65e:e6
  65f-65f:dc 670-670:23 6d6-6dc:e6 6df-6e2:e6 6e3-6e3:dc 6e4-6e4:e6 6e7-6e8:e6 6ea-6ea:dc
  6eb-6ec:e6 6ed-6ed:dc 711-711:24 730-730:e6 731-731:dc 732-733:e6 734-734:dc 735-736:e6
  737-739:dc 73a-73a:e6 73b-73c:dc 73d-73d:e6 73e-73e:dc 73f-741:e6 742-742:dc 743-743:e6
  744-744:dc 745-745:e6 746-746:dc 747-747:e6 748-748:dc 749-74a:e6 7eb-7f1:e6 7f2-7f2:dc
  7f3-7f3:e6 7fd-7fd:dc 816-819:e6 81b-823:e6 825-827:e6 829-82d:e6 859-85b:dc 898-898:e6
  899-89b:dc 89c-89f:e6 8ca-8ce:e6 8cf-8d3:dc 8d4-8e1:e6 8e3-8e3:dc 8e4-8e5:e6 8e6-8e6:dc
  8e7-8e8:e6 8e9-8e9:dc 8ea-8ec:e6 8ed-8ef:dc 8f0-8f0:1b 8f1-8f1:1c 8f2-8f2:1d 8f3-8f5:e6
  8f6-8f6:dc 8f7-8f8:e6 8f9-8fa:dc 8fb-8ff:e6 93c-93c:7 94d-94d:9 951-951:e6 952-952:dc
  953-954:e6 9bc-9bc:7 9cd-9cd:9 9fe-9fe:e6 a3c-a3c:7 a4d-a4d:9 abc-abc:7 acd-acd:9 b3c-b3c:7
  b4d-b4d:9 bcd-bcd:9 c3c-c3c:7 c4d-c4d:9 c55-c55:54 c56-c56:5b cbc-cbc:7 ccd-ccd:9 d3b-d3c:9
  d4d-d4d:9 dca-dca:9 e38-e39:67 e3a-e3a:9 e48-e4b:6b eb8-eb9:76 eba-eba:9 ec8-ecb:7a f18-f19:dc
  f35-f35:dc f37-f37:dc f39-f39:d8 f71-f71:81 f72-f72:82 f74-f74:84 f7a-f7d:82 f80-f80:82
  f82-f83:e6 f84-f84:9 f86-f87:e6 fc6-fc6:dc 1037-1037:7 1039-103a:9 108d-108d:dc 135d-135f:e6
  1714-1715:9 1734-1734:9 17d2-17d2:9 17dd-17dd:e6 18a9-18a9:e4 1939-1939:de 193a-193a:e6
  193b-193b:dc 1a17-1a17:e6 1a18-1a18:dc 1a60-1a60:9 1a75-1a7c:e6 1a7f-1a7f:dc 1ab0-1ab4:e6
  1ab5-1aba:dc 1abb-1abc:e6 1abd-1abd:dc 1abf-1ac0:dc 1ac1-1ac2:e6 1ac3-1ac4:dc 1ac5-1ac9:e6
  1aca-1aca:dc 1acb-1ace:e6 1b34-1b34:7 1b44-1b44:9 1b6b-1b6b:e6 1b6c-1b6c:dc 1b6d-1b73:e6
  1baa-1bab:9 1be6-1be6:7 1bf2-1bf3:9 1c37-1c37:7 1cd0-1cd2:e6 1cd4-1cd4:1 1cd5-1cd9:dc
  1cda-1cdb:e6 1cdc-1cdf:dc 1ce0-1ce0:e6 1ce2-1ce8:1 1ced-1ced:dc 1cf4-1cf4:e6 1cf8-1cf9:e6
  1dc0-1dc1:e6 1dc2-1dc2:dc 1dc3-1dc9:e6 1dca-1dca:dc 1dcb-1dcc:e6 1dcd-1dcd:ea 1dce-1dce:d6
  1dcf-1dcf:dc 1dd0-1dd0:ca 1dd1-1df5:e6 1df6-1df6:e8 1df7-1df8:e4 1df9-1df9:dc 1dfa-1dfa:da
  1dfb-1dfb:e6 1dfc-1dfc:e9 1dfd-1dfd:dc 1dfe-1dfe:e6 1dff-1dff:dc 20d0-20d1:e6 20d2-20d3:1
  20d4-20d7:e6 20d8-20da:1 20db-20dc:e6 20e1-20e1:e6 20e5-20e6:1 20e7-20e7:e6 20e8-20e8:dc
  20e9-20e9:e6 20ea-20eb:1 20ec-20ef:dc 20f0-20f0:e6 2cef-2cf1:e6 2d7f-2d7f:9 2de0-2dff:e6
  302a-302a:da 302b-302b:e4 302c-302c:e8 302d-302d:de 302e-302f:e0 3099-309a:8 a66f-a66f:e6
  a674-a67d:e6 a69e-a69f:e6 a6f0-a6f1:e6 a806-a806:9 a82c-a82c:9 a8c4-a8c4:9 a8e0-a8f1:e6
  a92b-a92d:dc a953-a953:9 a9b3-a9b3:7 a9c0-a9c0:9 aab0-aab0:e6 aab2-aab3:e6 aab4-aab4:dc
  aab7-aab8:e6 aabe-aabf:e6 aac1-aac1:e6 aaf6-aaf6:9 abed-abed:9 fb1e-fb1e:1a fe20-fe26:e6
  fe27-fe2d:dc fe2e-fe2f:e6 101fd-101fd:dc 102e0-102e0:dc 10376-1037a:e6 10a0d-10a0d:dc
  10a0f-10a0f:e6 10a38-10a38:e6 10a39-10a39:1 10a3a-10a3a:dc 10a3f-10a3f:9 10ae5-10ae5:e6
  10ae6-10ae6:dc 10d24-10d27:e6 10eab-10eac:e6 10efd-10eff:dc 10f46-10f47:dc 10f48-10f4a:e6
  10f4b-10f4b:dc 10f4c-10f4c:e6 10f4d-10f50:dc 10f82-10f82:e6 10f83-10f83:dc 10f84-10f84:e6
  10f85-10f85:dc 11046-11046:9 11070-11070:9 1107f-1107f:9 110b9-110b9:9 110ba-110ba:7
  11100-11102:e6 11133-11134:9 11173-11173:7 111c0-111c0:9 111ca-111ca:7 11235-11235:9
  11236-11236:7 112e9-112e9:7 112ea-112ea:9 1133b-1133c:7 1134d-1134d:9 11366-1136c:e6
  11370-11374:e6 11442-11442:9 11446-11446:7 1145e-1145e:e6 114c2-114c2:9 114c3-114c3:7
  115bf-115bf:9 115c0-115c0:7 1163f-1163f:9 116b6-116b6:9 116b7-116b7:7 1172b-1172b:9
  11839-11839:9 1183a-1183a:7 1193d-1193e:9 11943-11943:7 119e0-119e0:9 11a34-11a34:9
  11a47-11a47:9 11a99-11a99:9 11c3f-11c3f:9 11d42-11d42:7 11d44-11d45:9 11d97-11d97:9
  11f41-11f42:9 16af0-16af4:1 16b30-16b36:e6 16ff0-16ff1:6 1bc9e-1bc9e:1 1d165-1d166:d8
  1d167-1d169:1 1d16d-1d16d:e2 1d16e-1d172:d8 1d17b-1d182:dc 1d185-1d189:e6 1d18a-1d18b:dc
  1d1aa-1d1ad:e6 1d242-1d244:e6 1e000-1e006:e6 1e008-1e018:e6 1e01b-1e021:e6 1e023-1e024:e6
  1e026-1e02a:e6 1e08f-1e08f:e6 1e130-1e136:e6 1e2ae-1e2ae:e6 1e2ec-1e2ef:e6 1e4ec-1e4ed:e8
  1e4ee-1e4ee:dc 1e4ef-1e4ef:e6 1e8d0-1e8d6:dc 1e944-1e949:e6 1e94a-1e94a:7"

/-- Numbers `c_a_b`: `c` is taken apart into `a` and `b`, or only into `a` if `b` is zero. -/
def decompositions : List Nat := [
  0xc0_000041_000300, 0xc1_000041_000301, 0xc2_000041_000302, 0xc3_000041_000303,
  0xc4_000041_000308, 0xc5_000041_00030a, 0xc7_000043_000327, 0xc8_000045_000300,
  0xc9_000045_000301, 0xca_000045_000302, 0xcb_000045_000308, 0xcc_000049_000300,
  0xcd_000049_000301, 0xce_000049_000302, 0xcf_000049_000308, 0xd1_00004e_000303,
  0xd2_00004f_000300, 0xd3_00004f_000301, 0xd4_00004f_000302, 0xd5_00004f_000303,
  0xd6_00004f_000308, 0xd9_000055_000300, 0xda_000055_000301, 0xdb_000055_000302,
  0xdc_000055_000308, 0xdd_000059_000301, 0xe0_000061_000300, 0xe1_000061_000301,
  0xe2_000061_000302, 0xe3_000061_000303, 0xe4_000061_000308, 0xe5_000061_00030a,
  0xe7_000063_000327, 0xe8_000065_000300, 0xe9_000065_000301, 0xea_000065_000302,
  0xeb_000065_000308, 0xec_000069_000300, 0xed_000069_000301, 0xee_000069_000302,
  0xef_000069_000308, 0xf1_00006e_000303, 0xf2_00006f_000300, 0xf3_00006f_000301,
  0xf4_00006f_000302, 0xf5_00006f_000303, 0xf6_00006f_000308, 0xf9_000075_000300,
  0xfa_000075_000301, 0xfb_000075_000302, 0xfc_000075_000308, 0xfd_000079_000301,
  0xff_000079_000308, 0x100_000041_000304, 0x101_000061_000304, 0x102_000041_000306,
  0x103_000061_000306, 0x104_000041_000328, 0x105_000061_000328, 0x106_000043_000301,
  0x107_000063_000301, 0x108_000043_000302, 0x109_000063_000302, 0x10a_000043_000307,
  0x10b_000063_000307, 0x10c_000043_00030c, 0x10d_000063_00030c, 0x10e_000044_00030c,
  0x10f_000064_00030c, 0x112_000045_000304, 0x113_000065_000304, 0x114_000045_000306,
  0x115_000065_000306, 0x116_000045_000307, 0x117_000065_000307, 0x118_000045_000328,
  0x119_000065_000328, 0x11a_000045_00030c, 0x11b_000065_00030c, 0x11c_000047_000302,
  0x11d_000067_000302, 0x11e_000047_000306, 0x11f_000067_000306, 0x120_000047_000307,
  0x121_000067_000307, 0x122_000047_000327, 0x123_000067_000327, 0x124_000048_000302,
  0x125_000068_000302, 0x128_000049_000303, 0x129_000069_000303, 0x12a_000049_000304,
  0x12b_000069_000304, 0x12c_000049_000306, 0x12d_000069_000306, 0x12e_000049_000328,
  0x12f_000069_000328, 0x130_000049_000307, 0x134_00004a_000302, 0x135_00006a_000302,
  0x136_00004b_000327, 0x137_00006b_000327, 0x139_00004c_000301, 0x13a_00006c_000301,
  0x13b_00004c_000327, 0x13c_00006c_000327, 0x13d_00004c_00030c, 0x13e_00006c_00030c,
  0x143_00004e_000301, 0x144_00006e_000301, 0x145_00004e_000327, 0x146_00006e_000327,
  0x147_00004e_00030c, 0x148_00006e_00030c, 0x14c_00004f_000304, 0x14d_00006f_000304,
  0x14e_00004f_000306, 0x14f_00006f_000306, 0x150_00004f_00030b, 0x151_00006f_00030b,
  0x154_000052_000301, 0x155_000072_000301, 0x156_000052_000327, 0x157_000072_000327,
  0x158_000052_00030c, 0x159_000072_00030c, 0x15a_000053_000301, 0x15b_000073_000301,
  0x15c_000053_000302, 0x15d_000073_000302, 0x15e_000053_000327, 0x15f_000073_000327,
  0x160_000053_00030c, 0x161_000073_00030c, 0x162_000054_000327, 0x163_000074_000327,
  0x164_000054_00030c, 0x165_000074_00030c, 0x168_000055_000303, 0x169_000075_000303,
  0x16a_000055_000304, 0x16b_000075_000304, 0x16c_000055_000306, 0x16d_000075_000306,
  0x16e_000055_00030a, 0x16f_000075_00030a, 0x170_000055_00030b, 0x171_000075_00030b,
  0x172_000055_000328, 0x173_000075_000328, 0x174_000057_000302, 0x175_000077_000302,
  0x176_000059_000302, 0x177_000079_000302, 0x178_000059_000308, 0x179_00005a_000301,
  0x17a_00007a_000301, 0x17b_00005a_000307, 0x17c_00007a_000307, 0x17d_00005a_00030c,
  0x17e_00007a_00030c, 0x1a0_00004f_00031b, 0x1a1_00006f_00031b, 0x1af_000055_00031b,
  0x1b0_000075_00031b, 0x1cd_000041_00030c, 0x1ce_000061_00030c, 0x1cf_000049_00030c,
  0x1d0_000069_00030c, 0x1d1_00004f_00030c, 0x1d2_00006f_00030c, 0x1d3_000055_00030c,
  0x1d4_000075_00030c, 0x1d5_0000dc_000304, 0x1d6_0000fc_000304, 0x1d7_0000dc_000301,
  0x1d8_0000fc_000301, 0x1d9_0000dc_00030c, 0x1da_0000fc_00030c, 0x1db_0000dc_000300,
  0x1dc_0000fc_000300, 0x1de_0000c4_000304, 0x1df_0000e4_000304, 0x1e0_000226_000304,
  0x1e1_000227_000304, 0x1e2_0000c6_000304, 0x1e3_0000e6_000304, 0x1e6_000047_00030c,
  0x1e7_000067_00030c, 0x1e8_00004b_00030c, 0x1e9_00006b_00030c, 0x1ea_00004f_000328,
  0x1eb_00006f_000328, 0x1ec_0001ea_000304, 0x1ed_0001eb_000304, 0x1ee_0001b7_00030c,
  0x1ef_000292_00030c, 0x1f0_00006a_00030c, 0x1f4_000047_000301, 0x1f5_000067_000301,
  0x1f8_00004e_000300, 0x1f9_00006e_000300, 0x1fa_0000c5_000301, 0x1fb_0000e5_000301,
  0x1fc_0000c6_000301, 0x1fd_0000e6_000301, 0x1fe_0000d8_000301, 0x1ff_0000f8_000301,
  0x200_000041_00030f, 0x201_000061_00030f, 0x202_000041_000311, 0x203_000061_000311,
  0x204_000045_00030f, 0x205_000065_00030f, 0x206_000045_000311, 0x207_000065_000311,
  0x208_000049_00030f, 0x209_000069_00030f, 0x20a_000049_000311, 0x20b_000069_000311,
  0x20c_00004f_00030f, 0x20d_00006f_00030f, 0x20e_00004f_000311, 0x20f_00006f_000311,
  0x210_000052_00030f, 0x211_000072_00030f, 0x212_000052_000311, 0x213_000072_000311,
  0x214_000055_00030f, 0x215_000075_00030f, 0x216_000055_000311, 0x217_000075_000311,
  0x218_000053_000326, 0x219_000073_000326, 0x21a_000054_000326, 0x21b_000074_000326,
  0x21e_000048_00030c, 0x21f_000068_00030c, 0x226_000041_000307, 0x227_000061_000307,
  0x228_000045_000327, 0x229_000065_000327, 0x22a_0000d6_000304, 0x22b_0000f6_000304,
  0x22c_0000d5_000304, 0x22d_0000f5_000304, 0x22e_00004f_000307, 0x22f_00006f_000307,
  0x230_00022e_000304, 0x231_00022f_000304, 0x232_000059_000304, 0x233_000079_000304,
  0x340_000300_000000, 0x341_000301_000000, 0x343_000313_000000, 0x344_000308_000301,
  0x374_0002b9_000000, 0x37e_00003b_000000, 0x385_0000a8_000301, 0x386_000391_000301,
  0x387_0000b7_000000, 0x388_000395_000301, 0x389_000397_000301, 0x38a_000399_000301,
  0x38c_00039f_000301, 0x38e_0003a5_000301, 0x38f_0003a9_000301, 0x390_0003ca_000301,
  0x3aa_000399_000308, 0x3ab_0003a5_000308, 0x3ac_0003b1_000301, 0x3ad_0003b5_000301,
  0x3ae_0003b7_000301, 0x3af_0003b9_000301, 0x3b0_0003cb_000301, 0x3ca_0003b9_000308,
  0x3cb_0003c5_000308, 0x3cc_0003bf_000301, 0x3cd_0003c5_000301, 0x3ce_0003c9_000301,
  0x3d3_0003d2_000301, 0x3d4_0003d2_000308, 0x400_000415_000300, 0x401_000415_000308,
  0x403_000413_000301, 0x407_000406_000308, 0x40c_00041a_000301, 0x40d_000418_000300,
  0x40e_000423_000306, 0x419_000418_000306, 0x439_000438_000306, 0x450_000435_000300,
  0x451_000435_000308, 0x453_000433_000301, 0x457_000456_000308, 0x45c_00043a_000301,
  0x45d_000438_000300, 0x45e_000443_000306, 0x476_000474_00030f, 0x477_000475_00030f,
  0x4c1_000416_000306, 0x4c2_000436_000306, 0x4d0_000410_000306, 0x4d1_000430_000306,
  0x4d2_000410_000308, 0x4d3_000430_000308, 0x4d6_000415_000306, 0x4d7_000435_000306,
  0x4da_0004d8_000308, 0x4db_0004d9_000308, 0x4dc_000416_000308, 0x4dd_000436_000308,
  0x4de_000417_000308, 0x4df_000437_000308, 0x4e2_000418_000304, 0x4e3_000438_000304,
  0x4e4_000418_000308, 0x4e5_000438_000308, 0x4e6_00041e_000308, 0x4e7_00043e_000308,
  0x4ea_0004e8_000308, 0x4eb_0004e9_000308, 0x4ec_00042d_000308, 0x4ed_00044d_000308,
  0x4ee_000423_000304, 0x4ef_000443_000304, 0x4f0_000423_000308, 0x4f1_000443_000308,
  0x4f2_000423_00030b, 0x4f3_000443_00030b, 0x4f4_000427_000308, 0x4f5_000447_000308,
  0x4f8_00042b_000308, 0x4f9_00044b_000308, 0x622_000627_000653, 0x623_000627_000654,
  0x624_000648_000654, 0x625_000627_000655, 0x626_00064a_000654, 0x6c0_0006d5_000654,
  0x6c2_0006c1_000654, 0x6d3_0006d2_000654, 0x929_000928_00093c, 0x931_000930_00093c,
  0x934_000933_00093c, 0x958_000915_00093c, 0x959_000916_00093c, 0x95a_000917_00093c,
  0x95b_00091c_00093c, 0x95c_000921_00093c, 0x95d_000922_00093c, 0x95e_00092b_00093c,
  0x95f_00092f_00093c, 0x9cb_0009c7_0009be, 0x9cc_0009c7_0009d7, 0x9dc_0009a1_0009bc,
  0x9dd_0009a2_0009bc, 0x9df_0009af_0009bc, 0xa33_000a32_000a3c, 0xa36_000a38_000a3c,
  0xa59_000a16_000a3c, 0xa5a_000a17_000a3c, 0xa5b_000a1c_000a3c, 0xa5e_000a2b_000a3c,
  0xb48_000b47_000b56, 0xb4b_000b47_000b3e, 0xb4c_000b47_000b57, 0xb5c_000b21_000b3c,
  0xb5d_000b22_000b3c, 0xb94_000b92_000bd7, 0xbca_000bc6_000bbe, 0xbcb_000bc7_000bbe,
  0xbcc_000bc6_000bd7, 0xc48_000c46_000c56, 0xcc0_000cbf_000cd5, 0xcc7_000cc6_000cd5,
  0xcc8_000cc6_000cd6, 0xcca_000cc6_000cc2, 0xccb_000cca_000cd5, 0xd4a_000d46_000d3e,
  0xd4b_000d47_000d3e, 0xd4c_000d46_000d57, 0xdda_000dd9_000dca, 0xddc_000dd9_000dcf,
  0xddd_000ddc_000dca, 0xdde_000dd9_000ddf, 0xf43_000f42_000fb7, 0xf4d_000f4c_000fb7,
  0xf52_000f51_000fb7, 0xf57_000f56_000fb7, 0xf5c_000f5b_000fb7, 0xf69_000f40_000fb5,
  0xf73_000f71_000f72, 0xf75_000f71_000f74, 0xf76_000fb2_000f80, 0xf78_000fb3_000f80,
  0xf81_000f71_000f80, 0xf93_000f92_000fb7, 0xf9d_000f9c_000fb7, 0xfa2_000fa1_000fb7,
  0xfa7_000fa6_000fb7, 0xfac_000fab_000fb7, 0xfb9_000f90_000fb5, 0x1026_001025_00102e,
  0x1b06_001b05_001b35, 0x1b08_001b07_001b35, 0x1b0a_001b09_001b35, 0x1b0c_001b0b_001b35,
  0x1b0e_001b0d_001b35, 0x1b12_001b11_001b35, 0x1b3b_001b3a_001b35, 0x1b3d_001b3c_001b35,
  0x1b40_001b3e_001b35, 0x1b41_001b3f_001b35, 0x1b43_001b42_001b35, 0x1e00_000041_000325,
  0x1e01_000061_000325, 0x1e02_000042_000307, 0x1e03_000062_000307, 0x1e04_000042_000323,
  0x1e05_000062_000323, 0x1e06_000042_000331, 0x1e07_000062_000331, 0x1e08_0000c7_000301,
  0x1e09_0000e7_000301, 0x1e0a_000044_000307, 0x1e0b_000064_000307, 0x1e0c_000044_000323,
  0x1e0d_000064_000323, 0x1e0e_000044_000331, 0x1e0f_000064_000331, 0x1e10_000044_000327,
  0x1e11_000064_000327, 0x1e12_000044_00032d, 0x1e13_000064_00032d, 0x1e14_000112_000300,
  0x1e15_000113_000300, 0x1e16_000112_000301, 0x1e17_000113_000301, 0x1e18_000045_00032d,
  0x1e19_000065_00032d, 0x1e1a_000045_000330, 0x1e1b_000065_000330, 0x1e1c_000228_000306,
  0x1e1d_000229_000306, 0x1e1e_000046_000307, 0x1e1f_000066_000307, 0x1e20_000047_000304,
  0x1e21_000067_000304, 0x1e22_000048_000307, 0x1e23_000068_000307, 0x1e24_000048_000323,
  0x1e25_000068_000323, 0x1e26_000048_000308, 0x1e27_000068_000308, 0x1e28_000048_000327,
  0x1e29_000068_000327, 0x1e2a_000048_00032e, 0x1e2b_000068_00032e, 0x1e2c_000049_000330,
  0x1e2d_000069_000330, 0x1e2e_0000cf_000301, 0x1e2f_0000ef_000301, 0x1e30_00004b_000301,
  0x1e31_00006b_000301, 0x1e32_00004b_000323, 0x1e33_00006b_000323, 0x1e34_00004b_000331,
  0x1e35_00006b_000331, 0x1e36_00004c_000323, 0x1e37_00006c_000323, 0x1e38_001e36_000304,
  0x1e39_001e37_000304, 0x1e3a_00004c_000331, 0x1e3b_00006c_000331, 0x1e3c_00004c_00032d,
  0x1e3d_00006c_00032d, 0x1e3e_00004d_000301, 0x1e3f_00006d_000301, 0x1e40_00004d_000307,
  0x1e41_00006d_000307, 0x1e42_00004d_000323, 0x1e43_00006d_000323, 0x1e44_00004e_000307,
  0x1e45_00006e_000307, 0x1e46_00004e_000323, 0x1e47_00006e_000323, 0x1e48_00004e_000331,
  0x1e49_00006e_000331, 0x1e4a_00004e_00032d, 0x1e4b_00006e_00032d, 0x1e4c_0000d5_000301,
  0x1e4d_0000f5_000301, 0x1e4e_0000d5_000308, 0x1e4f_0000f5_000308, 0x1e50_00014c_000300,
  0x1e51_00014d_000300, 0x1e52_00014c_000301, 0x1e53_00014d_000301, 0x1e54_000050_000301,
  0x1e55_000070_000301, 0x1e56_000050_000307, 0x1e57_000070_000307, 0x1e58_000052_000307,
  0x1e59_000072_000307, 0x1e5a_000052_000323, 0x1e5b_000072_000323, 0x1e5c_001e5a_000304,
  0x1e5d_001e5b_000304, 0x1e5e_000052_000331, 0x1e5f_000072_000331, 0x1e60_000053_000307,
  0x1e61_000073_000307, 0x1e62_000053_000323, 0x1e63_000073_000323, 0x1e64_00015a_000307,
  0x1e65_00015b_000307, 0x1e66_000160_000307, 0x1e67_000161_000307, 0x1e68_001e62_000307,
  0x1e69_001e63_000307, 0x1e6a_000054_000307, 0x1e6b_000074_000307, 0x1e6c_000054_000323,
  0x1e6d_000074_000323, 0x1e6e_000054_000331, 0x1e6f_000074_000331, 0x1e70_000054_00032d,
  0x1e71_000074_00032d, 0x1e72_000055_000324, 0x1e73_000075_000324, 0x1e74_000055_000330,
  0x1e75_000075_000330, 0x1e76_000055_00032d, 0x1e77_000075_00032d, 0x1e78_000168_000301,
  0x1e79_000169_000301, 0x1e7a_00016a_000308, 0x1e7b_00016b_000308, 0x1e7c_000056_000303,
  0x1e7d_000076_000303, 0x1e7e_000056_000323, 0x1e7f_000076_000323, 0x1e80_000057_000300,
  0x1e81_000077_000300, 0x1e82_000057_000301, 0x1e83_000077_000301, 0x1e84_000057_000308,
  0x1e85_000077_000308, 0x1e86_000057_000307, 0x1e87_000077_000307, 0x1e88_000057_000323,
  0x1e89_000077_000323, 0x1e8a_000058_000307, 0x1e8b_000078_000307, 0x1e8c_000058_000308,
  0x1e8d_000078_000308, 0x1e8e_000059_000307, 0x1e8f_000079_000307, 0x1e90_00005a_000302,
  0x1e91_00007a_000302, 0x1e92_00005a_000323, 0x1e93_00007a_000323, 0x1e94_00005a_000331,
  0x1e95_00007a_000331, 0x1e96_000068_000331, 0x1e97_000074_000308, 0x1e98_000077_00030a,
  0x1e99_000079_00030a, 0x1e9b_00017f_000307, 0x1ea0_000041_000323, 0x1ea1_000061_000323,
  0x1ea2_000041_000309, 0x1ea3_000061_000309, 0x1ea4_0000c2_000301, 0x1ea5_0000e2_000301,
  0x1ea6_0000c2_000300, 0x1ea7_0000e2_000300, 0x1ea8_0000c2_000309, 0x1ea9_0000e2_000309,
  0x1eaa_0000c2_000303, 0x1eab_0000e2_000303, 0x1eac_001ea0_000302, 0x1ead_001ea1_000302,
  0x1eae_000102_000301, 0x1eaf_000103_000301, 0x1eb0_000102_000300, 0x1eb1_000103_000300,
  0x1eb2_000102_000309, 0x1eb3_000103_000309, 0x1eb4_000102_000303, 0x1eb5_000103_000303,
  0x1eb6_001ea0_000306, 0x1eb7_001ea1_000306, 0x1eb8_000045_000323, 0x1eb9_000065_000323,
  0x1eba_000045_000309, 0x1ebb_000065_000309, 0x1ebc_000045_000303, 0x1ebd_000065_000303,
  0x1ebe_0000ca_000301, 0x1ebf_0000ea_000301, 0x1ec0_0000ca_000300, 0x1ec1_0000ea_000300,
  0x1ec2_0000ca_000309, 0x1ec3_0000ea_000309, 0x1ec4_0000ca_000303, 0x1ec5_0000ea_000303,
  0x1ec6_001eb8_000302, 0x1ec7_001eb9_000302, 0x1ec8_000049_000309, 0x1ec9_000069_000309,
  0x1eca_000049_000323, 0x1ecb_000069_000323, 0x1ecc_00004f_000323, 0x1ecd_00006f_000323,
  0x1ece_00004f_000309, 0x1ecf_00006f_000309, 0x1ed0_0000d4_000301, 0x1ed1_0000f4_000301,
  0x1ed2_0000d4_000300, 0x1ed3_0000f4_000300, 0x1ed4_0000d4_000309, 0x1ed5_0000f4_000309,
  0x1ed6_0000d4_000303, 0x1ed7_0000f4_000303, 0x1ed8_001ecc_000302, 0x1ed9_001ecd_000302,
  0x1eda_0001a0_000301, 0x1edb_0001a1_000301, 0x1edc_0001a0_000300, 0x1edd_0001a1_000300,
  0x1ede_0001a0_000309, 0x1edf_0001a1_000309, 0x1ee0_0001a0_000303, 0x1ee1_0001a1_000303,
  0x1ee2_0001a0_000323, 0x1ee3_0001a1_000323, 0x1ee4_000055_000323, 0x1ee5_000075_000323,
  0x1ee6_000055_000309, 0x1ee7_000075_000309, 0x1ee8_0001af_000301, 0x1ee9_0001b0_000301,
  0x1eea_0001af_000300, 0x1eeb_0001b0_000300, 0x1eec_0001af_000309, 0x1eed_0001b0_000309,
  0x1eee_0001af_000303, 0x1eef_0001b0_000303, 0x1ef0_0001af_000323, 0x1ef1_0001b0_000323,
  0x1ef2_000059_000300, 0x1ef3_000079_000300, 0x1ef4_000059_000323, 0x1ef5_000079_000323,
  0x1ef6_000059_000309, 0x1ef7_000079_000309, 0x1ef8_000059_000303, 0x1ef9_000079_000303,
  0x1f00_0003b1_000313, 0x1f01_0003b1_000314, 0x1f02_001f00_000300, 0x1f03_001f01_000300,
  0x1f04_001f00_000301, 0x1f05_001f01_000301, 0x1f06_001f00_000342, 0x1f07_001f01_000342,
  0x1f08_000391_000313, 0x1f09_000391_000314, 0x1f0a_001f08_000300, 0x1f0b_001f09_000300,
  0x1f0c_001f08_000301, 0x1f0d_001f09_000301, 0x1f0e_001f08_000342, 0x1f0f_001f09_000342,
  0x1f10_0003b5_000313, 0x1f11_0003b5_000314, 0x1f12_001f10_000300, 0x1f13_001f11_000300,
  0x1f14_001f10_000301, 0x1f15_001f11_000301, 0x1f18_000395_000313, 0x1f19_000395_000314,
  0x1f1a_001f18_000300, 0x1f1b_001f19_000300, 0x1f1c_001f18_000301, 0x1f1d_001f19_000301,
  0x1f20_0003b7_000313, 0x1f21_0003b7_000314, 0x1f22_001f20_000300, 0x1f23_001f21_000300,
  0x1f24_001f20_000301, 0x1f25_001f21_000301, 0x1f26_001f20_000342, 0x1f27_001f21_000342,
  0x1f28_000397_000313, 0x1f29_000397_000314, 0x1f2a_001f28_000300, 0x1f2b_001f29_000300,
  0x1f2c_001f28_000301, 0x1f2d_001f29_000301, 0x1f2e_001f28_000342, 0x1f2f_001f29_000342,
  0x1f30_0003b9_000313, 0x1f31_0003b9_000314, 0x1f32_001f30_000300, 0x1f33_001f31_000300,
  0x1f34_001f30_000301, 0x1f35_001f31_000301, 0x1f36_001f30_000342, 0x1f37_001f31_000342,
  0x1f38_000399_000313, 0x1f39_000399_000314, 0x1f3a_001f38_000300, 0x1f3b_001f39_000300,
  0x1f3c_001f38_000301, 0x1f3d_001f39_000301, 0x1f3e_001f38_000342, 0x1f3f_001f39_000342,
  0x1f40_0003bf_000313, 0x1f41_0003bf_000314, 0x1f42_001f40_000300, 0x1f43_001f41_000300,
  0x1f44_001f40_000301, 0x1f45_001f41_000301, 0x1f48_00039f_000313, 0x1f49_00039f_000314,
  0x1f4a_001f48_000300, 0x1f4b_001f49_000300, 0x1f4c_001f48_000301, 0x1f4d_001f49_000301,
  0x1f50_0003c5_000313, 0x1f51_0003c5_000314, 0x1f52_001f50_000300, 0x1f53_001f51_000300,
  0x1f54_001f50_000301, 0x1f55_001f51_000301, 0x1f56_001f50_000342, 0x1f57_001f51_000342,
  0x1f59_0003a5_000314, 0x1f5b_001f59_000300, 0x1f5d_001f59_000301, 0x1f5f_001f59_000342,
  0x1f60_0003c9_000313, 0x1f61_0003c9_000314, 0x1f62_001f60_000300, 0x1f63_001f61_000300,
  0x1f64_001f60_000301, 0x1f65_001f61_000301, 0x1f66_001f60_000342, 0x1f67_001f61_000342,
  0x1f68_0003a9_000313, 0x1f69_0003a9_000314, 0x1f6a_001f68_000300, 0x1f6b_001f69_000300,
  0x1f6c_001f68_000301, 0x1f6d_001f69_000301, 0x1f6e_001f68_000342, 0x1f6f_001f69_000342,
  0x1f70_0003b1_000300, 0x1f71_0003ac_000000, 0x1f72_0003b5_000300, 0x1f73_0003ad_000000,
  0x1f74_0003b7_000300, 0x1f75_0003ae_000000, 0x1f76_0003b9_000300, 0x1f77_0003af_000000,
  0x1f78_0003bf_000300, 0x1f79_0003cc_000000, 0x1f7a_0003c5_000300, 0x1f7b_0003cd_000000,
  0x1f7c_0003c9_000300, 0x1f7d_0003ce_000000, 0x1f80_001f00_000345, 0x1f81_001f01_000345,
  0x1f82_001f02_000345, 0x1f83_001f03_000345, 0x1f84_001f04_000345, 0x1f85_001f05_000345,
  0x1f86_001f06_000345, 0x1f87_001f07_000345, 0x1f88_001f08_000345, 0x1f89_001f09_000345,
  0x1f8a_001f0a_000345, 0x1f8b_001f0b_000345, 0x1f8c_001f0c_000345, 0x1f8d_001f0d_000345,
  0x1f8e_001f0e_000345, 0x1f8f_001f0f_000345, 0x1f90_001f20_000345, 0x1f91_001f21_000345,
  0x1f92_001f22_000345, 0x1f93_001f23_000345, 0x1f94_001f24_000345, 0x1f95_001f25_000345,
  0x1f96_001f26_000345, 0x1f97_001f27_000345, 0x1f98_001f28_000345, 0x1f99_001f29_000345,
  0x1f9a_001f2a_000345, 0x1f9b_001f2b_000345, 0x1f9c_001f2c_000345, 0x1f9d_001f2d_000345,
  0x1f9e_001f2e_000345, 0x1f9f_001f2f_000345, 0x1fa0_001f60_000345, 0x1fa1_001f61_000345,
  0x1fa2_001f62_000345, 0x1fa3_001f63_000345, 0x1fa4_001f64_000345, 0x1fa5_001f65_000345,
  0x1fa6_001f66_000345, 0x1fa7_001f67_000345, 0x1fa8_001f68_000345, 0x1fa9_001f69_000345,
  0x1faa_001f6a_000345, 0x1fab_001f6b_000345, 0x1fac_001f6c_000345, 0x1fad_001f6d_000345,
  0x1fae_001f6e_000345, 0x1faf_001f6f_000345, 0x1fb0_0003b1_000306, 0x1fb1_0003b1_000304,
  0x1fb2_001f70_000345, 0x1fb3_0003b1_000345, 0x1fb4_0003ac_000345, 0x1fb6_0003b1_000342,
  0x1fb7_001fb6_000345, 0x1fb8_000391_000306, 0x1fb9_000391_000304, 0x1fba_000391_000300,
  0x1fbb_000386_000000, 0x1fbc_000391_000345, 0x1fbe_0003b9_000000, 0x1fc1_0000a8_000342,
  0x1fc2_001f74_000345, 0x1fc3_0003b7_000345, 0x1fc4_0003ae_000345, 0x1fc6_0003b7_000342,
  0x1fc7_001fc6_000345, 0x1fc8_000395_000300, 0x1fc9_000388_000000, 0x1fca_000397_000300,
  0x1fcb_000389_000000, 0x1fcc_000397_000345, 0x1fcd_001fbf_000300, 0x1fce_001fbf_000301,
  0x1fcf_001fbf_000342, 0x1fd0_0003b9_000306, 0x1fd1_0003b9_000304, 0x1fd2_0003ca_000300,
  0x1fd3_000390_000000, 0x1fd6_0003b9_000342, 0x1fd7_0003ca_000342, 0x1fd8_000399_000306,
  0x1fd9_000399_000304, 0x1fda_000399_000300, 0x1fdb_00038a_000000, 0x1fdd_001ffe_000300,
  0x1fde_001ffe_000301, 0x1fdf_001ffe_000342, 0x1fe0_0003c5_000306, 0x1fe1_0003c5_000304,
  0x1fe2_0003cb_000300, 0x1fe3_0003b0_000000, 0x1fe4_0003c1_000313, 0x1fe5_0003c1_000314,
  0x1fe6_0003c5_000342, 0x1fe7_0003cb_000342, 0x1fe8_0003a5_000306, 0x1fe9_0003a5_000304,
  0x1fea_0003a5_000300, 0x1feb_00038e_000000, 0x1fec_0003a1_000314, 0x1fed_0000a8_000300,
  0x1fee_000385_000000, 0x1fef_000060_000000, 0x1ff2_001f7c_000345, 0x1ff3_0003c9_000345,
  0x1ff4_0003ce_000345, 0x1ff6_0003c9_000342, 0x1ff7_001ff6_000345, 0x1ff8_00039f_000300,
  0x1ff9_00038c_000000, 0x1ffa_0003a9_000300, 0x1ffb_00038f_000000, 0x1ffc_0003a9_000345,
  0x1ffd_0000b4_000000, 0x2000_002002_000000, 0x2001_002003_000000, 0x2126_0003a9_000000,
  0x212a_00004b_000000, 0x212b_0000c5_000000, 0x219a_002190_000338, 0x219b_002192_000338,
  0x21ae_002194_000338, 0x21cd_0021d0_000338, 0x21ce_0021d4_000338, 0x21cf_0021d2_000338,
  0x2204_002203_000338, 0x2209_002208_000338, 0x220c_00220b_000338, 0x2224_002223_000338,
  0x2226_002225_000338, 0x2241_00223c_000338, 0x2244_002243_000338, 0x2247_002245_000338,
  0x2249_002248_000338, 0x2260_00003d_000338, 0x2262_002261_000338, 0x226d_00224d_000338,
  0x226e_00003c_000338, 0x226f_00003e_000338, 0x2270_002264_000338, 0x2271_002265_000338,
  0x2274_002272_000338, 0x2275_002273_000338, 0x2278_002276_000338, 0x2279_002277_000338,
  0x2280_00227a_000338, 0x2281_00227b_000338, 0x2284_002282_000338, 0x2285_002283_000338,
  0x2288_002286_000338, 0x2289_002287_000338, 0x22ac_0022a2_000338, 0x22ad_0022a8_000338,
  0x22ae_0022a9_000338, 0x22af_0022ab_000338, 0x22e0_00227c_000338, 0x22e1_00227d_000338,
  0x22e2_002291_000338, 0x22e3_002292_000338, 0x22ea_0022b2_000338, 0x22eb_0022b3_000338,
  0x22ec_0022b4_000338, 0x22ed_0022b5_000338, 0x2329_003008_000000, 0x232a_003009_000000,
  0x2adc_002add_000338, 0x304c_00304b_003099, 0x304e_00304d_003099, 0x3050_00304f_003099,
  0x3052_003051_003099, 0x3054_003053_003099, 0x3056_003055_003099, 0x3058_003057_003099,
  0x305a_003059_003099, 0x305c_00305b_003099, 0x305e_00305d_003099, 0x3060_00305f_003099,
  0x3062_003061_003099, 0x3065_003064_003099, 0x3067_003066_003099, 0x3069_003068_003099,
  0x3070_00306f_003099, 0x3071_00306f_00309a, 0x3073_003072_003099, 0x3074_003072_00309a,
  0x3076_003075_003099, 0x3077_003075_00309a, 0x3079_003078_003099, 0x307a_003078_00309a,
  0x307c_00307b_003099, 0x307d_00307b_00309a, 0x3094_003046_003099, 0x309e_00309d_003099,
  0x30ac_0030ab_003099, 0x30ae_0030ad_003099, 0x30b0_0030af_003099, 0x30b2_0030b1_003099,
  0x30b4_0030b3_003099, 0x30b6_0030b5_003099, 0x30b8_0030b7_003099, 0x30ba_0030b9_003099,
  0x30bc_0030bb_003099, 0x30be_0030bd_003099, 0x30c0_0030bf_003099, 0x30c2_0030c1_003099,
  0x30c5_0030c4_003099, 0x30c7_0030c6_003099, 0x30c9_0030c8_003099, 0x30d0_0030cf_003099,
  0x30d1_0030cf_00309a, 0x30d3_0030d2_003099, 0x30d4_0030d2_00309a, 0x30d6_0030d5_003099,
  0x30d7_0030d5_00309a, 0x30d9_0030d8_003099, 0x30da_0030d8_00309a, 0x30dc_0030db_003099,
  0x30dd_0030db_00309a, 0x30f4_0030a6_003099, 0x30f7_0030ef_003099, 0x30f8_0030f0_003099,
  0x30f9_0030f1_003099, 0x30fa_0030f2_003099, 0x30fe_0030fd_003099, 0xf900_008c48_000000,
  0xf901_0066f4_000000, 0xf902_008eca_000000, 0xf903_008cc8_000000, 0xf904_006ed1_000000,
  0xf905_004e32_000000, 0xf906_0053e5_000000, 0xf907_009f9c_000000, 0xf908_009f9c_000000,
  0xf909_005951_000000, 0xf90a_0091d1_000000, 0xf90b_005587_000000, 0xf90c_005948_000000,
  0xf90d_0061f6_000000, 0xf90e_007669_000000, 0xf90f_007f85_000000, 0xf910_00863f_000000,
  0xf911_0087ba_000000, 0xf912_0088f8_000000, 0xf913_00908f_000000, 0xf914_006a02_000000,
  0xf915_006d1b_000000, 0xf916_0070d9_000000, 0xf917_0073de_000000, 0xf918_00843d_000000,
  0xf919_00916a_000000, 0xf91a_0099f1_000000, 0xf91b_004e82_000000, 0xf91c_005375_000000,
  0xf91d_006b04_000000, 0xf91e_00721b_000000, 0xf91f_00862d_000000, 0xf920_009e1e_000000,
  0xf921_005d50_000000, 0xf922_006feb_000000, 0xf923_0085cd_000000, 0xf924_008964_000000,
  0xf925_0062c9_000000, 0xf926_0081d8_000000, 0xf927_00881f_000000, 0xf928_005eca_000000,
  0xf929_006717_000000, 0xf92a_006d6a_000000, 0xf92b_0072fc_000000, 0xf92c_0090ce_000000,
  0xf92d_004f86_000000, 0xf92e_0051b7_000000, 0xf92f_0052de_000000, 0xf930_0064c4_000000,
  0xf931_006ad3_000000, 0xf932_007210_000000, 0xf933_0076e7_000000, 0xf934_008001_000000,
  0xf935_008606_000000, 0xf936_00865c_000000, 0xf937_008def_000000, 0xf938_009732_000000,
  0xf939_009b6f_000000, 0xf93a_009dfa_000000, 0xf93b_00788c_000000, 0xf93c_00797f_000000,
  0xf93d_007da0_000000, 0xf93e_0083c9_000000, 0xf93f_009304_000000, 0xf940_009e7f_000000,
  0xf941_008ad6_000000, 0xf942_0058df_000000, 0xf943_005f04_000000, 0xf944_007c60_000000,
  0xf945_00807e_000000, 0xf946_007262_000000, 0xf947_0078ca_000000, 0xf948_008cc2_000000,
  0xf949_0096f7_000000, 0xf94a_0058d8_000000, 0xf94b_005c62_000000, 0xf94c_006a13_000000,
  0xf94d_006dda_000000, 0xf94e_006f0f_000000, 0xf94f_007d2f_000000, 0xf950_007e37_000000,
  0xf951_00964b_000000, 0xf952_0052d2_000000, 0xf953_00808b_000000, 0xf954_0051dc_000000,
  0xf955_0051cc_000000, 0xf956_007a1c_000000, 0xf957_007dbe_000000, 0xf958_0083f1_000000,
  0xf959_009675_000000, 0xf95a_008b80_000000, 0xf95b_0062cf_000000, 0xf95c_006a02_000000,
  0xf95d_008afe_000000, 0xf95e_004e39_000000, 0xf95f_005be7_000000, 0xf960_006012_000000,
  0xf961_007387_000000, 0xf962_007570_000000, 0xf963_005317_000000, 0xf964_0078fb_000000,
  0xf965_004fbf_000000, 0xf966_005fa9_000000, 0xf967_004e0d_000000, 0xf968_006ccc_000000,
  0xf969_006578_000000, 0xf96a_007d22_000000, 0xf96b_0053c3_000000, 0xf96c_00585e_000000,
  0xf96d_007701_000000, 0xf96e_008449_000000, 0xf96f_008aaa_000000, 0xf970_006bba_000000,
  0xf971_008fb0_000000, 0xf972_006c88_000000, 0xf973_0062fe_000000, 0xf974_0082e5_000000,
  0xf975_0063a0_000000, 0xf976_007565_000000, 0xf977_004eae_000000, 0xf978_005169_000000,
  0xf979_0051c9_000000, 0xf97a_006881_000000, 0xf97b_007ce7_000000, 0xf97c_00826f_000000,
  0xf97d_008ad2_000000, 0xf97e_0091cf_000000, 0xf97f_0052f5_000000, 0xf980_005442_000000,
  0xf981_005973_000000, 0xf982_005eec_000000, 0xf983_0065c5_000000, 0xf984_006ffe_000000,
  0xf985_00792a_000000, 0xf986_0095ad_000000, 0xf987_009a6a_000000, 0xf988_009e97_000000,
  0xf989_009ece_000000, 0xf98a_00529b_000000, 0xf98b_0066c6_000000, 0xf98c_006b77_000000,
  0xf98d_008f62_000000, 0xf98e_005e74_000000, 0xf98f_006190_000000, 0xf990_006200_000000,
  0xf991_00649a_000000, 0xf992_006f23_000000, 0xf993_007149_000000, 0xf994_007489_000000,
  0xf995_0079ca_000000, 0xf996_007df4_000000, 0xf997_00806f_000000, 0xf998_008f26_000000,
  0xf999_0084ee_000000, 0xf99a_009023_000000, 0xf99b_00934a_000000, 0xf99c_005217_000000,
  0xf99d_0052a3_000000, 0xf99e_0054bd_000000, 0xf99f_0070c8_000000, 0xf9a0_0088c2_000000,
  0xf9a1_008aaa_000000, 0xf9a2_005ec9_000000, 0xf9a3_005ff5_000000, 0xf9a4_00637b_000000,
  0xf9a5_006bae_000000, 0xf9a6_007c3e_000000, 0xf9a7_007375_000000, 0xf9a8_004ee4_000000,
  0xf9a9_0056f9_000000, 0xf9aa_005be7_000000, 0xf9ab_005dba_000000, 0xf9ac_00601c_000000,
  0xf9ad_0073b2_000000, 0xf9ae_007469_000000, 0xf9af_007f9a_000000, 0xf9b0_008046_000000,
  0xf9b1_009234_000000, 0xf9b2_0096f6_000000, 0xf9b3_009748_000000, 0xf9b4_009818_000000,
  0xf9b5_004f8b_000000, 0xf9b6_0079ae_000000, 0xf9b7_0091b4_000000, 0xf9b8_0096b8_000000,
  0xf9b9_0060e1_000000, 0xf9ba_004e86_000000, 0xf9bb_0050da_000000, 0xf9bc_005bee_000000,
  0xf9bd_005c3f_000000, 0xf9be_006599_000000, 0xf9bf_006a02_000000, 0xf9c0_0071ce_000000,
  0xf9c1_007642_000000, 0xf9c2_0084fc_000000, 0xf9c3_00907c_000000, 0xf9c4_009f8d_000000,
  0xf9c5_006688_000000, 0xf9c6_00962e_000000, 0xf9c7_005289_000000, 0xf9c8_00677b_000000,
  0xf9c9_0067f3_000000, 0xf9ca_006d41_000000, 0xf9cb_006e9c_000000, 0xf9cc_007409_000000,
  0xf9cd_007559_000000, 0xf9ce_00786b_000000, 0xf9cf_007d10_000000, 0xf9d0_00985e_000000,
  0xf9d1_00516d_000000, 0xf9d2_00622e_000000, 0xf9d3_009678_000000, 0xf9d4_00502b_000000,
  0xf9d5_005d19_000000, 0xf9d6_006dea_000000, 0xf9d7_008f2a_000000, 0xf9d8_005f8b_000000,
  0xf9d9_006144_000000, 0xf9da_006817_000000, 0xf9db_007387_000000, 0xf9dc_009686_000000,
  0xf9dd_005229_000000, 0xf9de_00540f_000000, 0xf9df_005c65_000000, 0xf9e0_006613_000000,
  0xf9e1_00674e_000000, 0xf9e2_0068a8_000000, 0xf9e3_006ce5_000000, 0xf9e4_007406_000000,
  0xf9e5_0075e2_000000, 0xf9e6_007f79_000000, 0xf9e7_0088cf_000000, 0xf9e8_0088e1_000000,
  0xf9e9_0091cc_000000, 0xf9ea_0096e2_000000, 0xf9eb_00533f_000000, 0xf9ec_006eba_000000,
  0xf9ed_00541d_000000, 0xf9ee_0071d0_000000, 0xf9ef_007498_000000, 0xf9f0_0085fa_000000,
  0xf9f1_0096a3_000000, 0xf9f2_009c57_000000, 0xf9f3_009e9f_000000, 0xf9f4_006797_000000,
  0xf9f5_006dcb_000000, 0xf9f6_0081e8_000000, 0xf9f7_007acb_000000, 0xf9f8_007b20_000000,
  0xf9f9_007c92_000000, 0xf9fa_0072c0_000000, 0xf9fb_007099_000000, 0xf9fc_008b58_000000,
  0xf9fd_004ec0_000000, 0xf9fe_008336_000000, 0xf9ff_00523a_000000, 0xfa00_005207_000000,
  0xfa01_005ea6_000000, 0xfa02_0062d3_000000, 0xfa03_007cd6_000000, 0xfa04_005b85_000000,
  0xfa05_006d1e_000000, 0xfa06_0066b4_000000, 0xfa07_008f3b_000000, 0xfa08_00884c_000000,
  0xfa09_00964d_000000, 0xfa0a_00898b_000000, 0xfa0b_005ed3_000000, 0xfa0c_005140_000000,
  0xfa0d_0055c0_000000, 0xfa10_00585a_000000, 0xfa12_006674_000000, 0xfa15_0051de_000000,
  0xfa16_00732a_000000, 0xfa17_0076ca_000000, 0xfa18_00793c_000000, 0xfa19_00795e_000000,
  0xfa1a_007965_000000, 0xfa1b_00798f_000000, 0xfa1c_009756_000000, 0xfa1d_007cbe_000000,
  0xfa1e_007fbd_000000, 0xfa20_008612_000000, 0xfa22_008af8_000000, 0xfa25_009038_000000,
  0xfa26_0090fd_000000, 0xfa2a_0098ef_000000, 0xfa2b_0098fc_000000, 0xfa2c_009928_000000,
  0xfa2d_009db4_000000, 0xfa2e_0090de_000000, 0xfa2f_0096b7_000000, 0xfa30_004fae_000000,
  0xfa31_0050e7_000000, 0xfa32_00514d_000000, 0xfa33_0052c9_000000, 0xfa34_0052e4_000000,
  0xfa35_005351_000000, 0xfa36_00559d_000000, 0xfa37_005606_000000, 0xfa38_005668_000000,
  0xfa39_005840_000000, 0xfa3a_0058a8_000000, 0xfa3b_005c64_000000, 0xfa3c_005c6e_000000,
  0xfa3d_006094_000000, 0xfa3e_006168_000000, 0xfa3f_00618e_000000, 0xfa40_0061f2_000000,
  0xfa41_00654f_000000, 0xfa42_0065e2_000000, 0xfa43_006691_000000, 0xfa44_006885_000000,
  0xfa45_006d77_000000, 0xfa46_006e1a_000000, 0xfa47_006f22_000000, 0xfa48_00716e_000000,
  0xfa49_00722b_000000, 0xfa4a_007422_000000, 0xfa4b_007891_000000, 0xfa4c_00793e_000000,
  0xfa4d_007949_000000, 0xfa4e_007948_000000, 0xfa4f_007950_000000, 0xfa50_007956_000000,
  0xfa51_00795d_000000, 0xfa52_00798d_000000, 0xfa53_00798e_000000, 0xfa54_007a40_000000,
  0xfa55_007a81_000000, 0xfa56_007bc0_000000, 0xfa57_007df4_000000, 0xfa58_007e09_000000,
  0xfa59_007e41_000000, 0xfa5a_007f72_000000, 0xfa5b_008005_000000, 0xfa5c_0081ed_000000,
  0xfa5d_008279_000000, 0xfa5e_008279_000000, 0xfa5f_008457_000000, 0xfa60_008910_000000,
  0xfa61_008996_000000, 0xfa62_008b01_000000, 0xfa63_008b39_000000, 0xfa64_008cd3_000000,
  0xfa65_008d08_000000, 0xfa66_008fb6_000000, 0xfa67_009038_000000, 0xfa68_0096e3_000000,
  0xfa69_0097ff_000000, 0xfa6a_00983b_000000, 0xfa6b_006075_000000, 0xfa6c_0242ee_000000,
  0xfa6d_008218_000000, 0xfa70_004e26_000000, 0xfa71_0051b5_000000, 0xfa72_005168_000000,
  0xfa73_004f80_000000, 0xfa74_005145_000000, 0xfa75_005180_000000, 0xfa76_0052c7_000000,
  0xfa77_0052fa_000000, 0xfa78_00559d_000000, 0xfa79_005555_000000, 0xfa7a_005599_000000,
  0xfa7b_0055e2_000000, 0xfa7c_00585a_000000, 0xfa7d_0058b3_000000, 0xfa7e_005944_000000,
  0xfa7f_005954_000000, 0xfa80_005a62_000000, 0xfa81_005b28_000000, 0xfa82_005ed2_000000,
  0xfa83_005ed9_000000, 0xfa84_005f69_000000, 0xfa85_005fad_000000, 0xfa86_0060d8_000000,
  0xfa87_00614e_000000, 0xfa88_006108_000000, 0xfa89_00618e_000000, 0xfa8a_006160_000000,
  0xfa8b_0061f2_000000, 0xfa8c_006234_000000, 0xfa8d_0063c4_000000, 0xfa8e_00641c_000000,
  0xfa8f_006452_000000, 0xfa90_006556_000000, 0xfa91_006674_000000, 0xfa92_006717_000000,
  0xfa93_00671b_000000, 0xfa94_006756_000000, 0xfa95_006b79_000000, 0xfa96_006bba_000000,
  0xfa97_006d41_000000, 0xfa98_006edb_000000, 0xfa99_006ecb_000000, 0xfa9a_006f22_000000,
  0xfa9b_00701e_000000, 0xfa9c_00716e_000000, 0xfa9d_0077a7_000000, 0xfa9e_007235_000000,
  0xfa9f_0072af_000000, 0xfaa0_00732a_000000, 0xfaa1_007471_000000, 0xfaa2_007506_000000,
  0xfaa3_00753b_000000, 0xfaa4_00761d_000000, 0xfaa5_00761f_000000, 0xfaa6_0076ca_000000,
  0xfaa7_0076db_000000, 0xfaa8_0076f4_000000, 0xfaa9_00774a_000000, 0xfaaa_007740_000000,
  0xfaab_0078cc_000000, 0xfaac_007ab1_000000, 0xfaad_007bc0_000000, 0xfaae_007c7b_000000,
  0xfaaf_007d5b_000000, 0xfab0_007df4_000000, 0xfab1_007f3e_000000, 0xfab2_008005_000000,
  0xfab3_008352_000000, 0xfab4_0083ef_000000, 0xfab5_008779_000000, 0xfab6_008941_000000,
  0xfab7_008986_000000, 0xfab8_008996_000000, 0xfab9_008abf_000000, 0xfaba_008af8_000000,
  0xfabb_008acb_000000, 0xfabc_008b01_000000, 0xfabd_008afe_000000, 0xfabe_008aed_000000,
  0xfabf_008b39_000000, 0xfac0_008b8a_000000, 0xfac1_008d08_000000, 0xfac2_008f38_000000,
  0xfac3_009072_000000, 0xfac4_009199_000000, 0xfac5_009276_000000, 0xfac6_00967c_000000,
  0xfac7_0096e3_000000, 0xfac8_009756_000000, 0xfac9_0097db_000000, 0xfaca_0097ff_000000,
  0xfacb_00980b_000000, 0xfacc_00983b_000000, 0xfacd_009b12_000000, 0xface_009f9c_000000,
  0xfacf_02284a_000000, 0xfad0_022844_000000, 0xfad1_0233d5_000000, 0xfad2_003b9d_000000,
  0xfad3_004018_000000, 0xfad4_004039_000000, 0xfad5_025249_000000, 0xfad6_025cd0_000000,
  0xfad7_027ed3_000000, 0xfad8_009f43_000000, 0xfad9_009f8e_000000, 0xfb1d_0005d9_0005b4,
  0xfb1f_0005f2_0005b7, 0xfb2a_0005e9_0005c1, 0xfb2b_0005e9_0005c2, 0xfb2c_00fb49_0005c1,
  0xfb2d_00fb49_0005c2, 0xfb2e_0005d0_0005b7, 0xfb2f_0005d0_0005b8, 0xfb30_0005d0_0005bc,
  0xfb31_0005d1_0005bc, 0xfb32_0005d2_0005bc, 0xfb33_0005d3_0005bc, 0xfb34_0005d4_0005bc,
  0xfb35_0005d5_0005bc, 0xfb36_0005d6_0005bc, 0xfb38_0005d8_0005bc, 0xfb39_0005d9_0005bc,
  0xfb3a_0005da_0005bc, 0xfb3b_0005db_0005bc, 0xfb3c_0005dc_0005bc, 0xfb3e_0005de_0005bc,
  0xfb40_0005e0_0005bc, 0xfb41_0005e1_0005bc, 0xfb43_0005e3_0005bc, 0xfb44_0005e4_0005bc,
  0xfb46_0005e6_0005bc, 0xfb47_0005e7_0005bc, 0xfb48_0005e8_0005bc, 0xfb49_0005e9_0005bc,
  0xfb4a_0005ea_0005bc, 0xfb4b_0005d5_0005b9, 0xfb4c_0005d1_0005bf, 0xfb4d_0005db_0005bf,
  0xfb4e_0005e4_0005bf, 0x1109a_011099_0110ba, 0x1109c_01109b_0110ba, 0x110ab_0110a5_0110ba,
  0x1112e_011131_011127, 0x1112f_011132_011127, 0x1134b_011347_01133e, 0x1134c_011347_011357,
  0x114bb_0114b9_0114ba, 0x114bc_0114b9_0114b0, 0x114be_0114b9_0114bd, 0x115ba_0115b8_0115af,
  0x115bb_0115b9_0115af, 0x11938_011935_011930, 0x1d15e_01d157_01d165, 0x1d15f_01d158_01d165,
  0x1d160_01d15f_01d16e, 0x1d161_01d15f_01d16f, 0x1d162_01d15f_01d170, 0x1d163_01d15f_01d171,
  0x1d164_01d15f_01d172, 0x1d1bb_01d1b9_01d165, 0x1d1bc_01d1ba_01d165, 0x1d1bd_01d1bb_01d16e,
  0x1d1be_01d1bc_01d16e, 0x1d1bf_01d1bb_01d16f, 0x1d1c0_01d1bc_01d16f, 0x2f800_004e3d_000000,
  0x2f801_004e38_000000, 0x2f802_004e41_000000, 0x2f803_020122_000000, 0x2f804_004f60_000000,
  0x2f805_004fae_000000, 0x2f806_004fbb_000000, 0x2f807_005002_000000, 0x2f808_00507a_000000,
  0x2f809_005099_000000, 0x2f80a_0050e7_000000, 0x2f80b_0050cf_000000, 0x2f80c_00349e_000000,
  0x2f80d_02063a_000000, 0x2f80e_00514d_000000, 0x2f80f_005154_000000, 0x2f810_005164_000000,
  0x2f811_005177_000000, 0x2f812_02051c_000000, 0x2f813_0034b9_000000, 0x2f814_005167_000000,
  0x2f815_00518d_000000, 0x2f816_02054b_000000, 0x2f817_005197_000000, 0x2f818_0051a4_000000,
  0x2f819_004ecc_000000, 0x2f81a_0051ac_000000, 0x2f81b_0051b5_000000, 0x2f81c_0291df_000000,
  0x2f81d_0051f5_000000, 0x2f81e_005203_000000, 0x2f81f_0034df_000000, 0x2f820_00523b_000000,
  0x2f821_005246_000000, 0x2f822_005272_000000, 0x2f823_005277_000000, 0x2f824_003515_000000,
  0x2f825_0052c7_000000, 0x2f826_0052c9_000000, 0x2f827_0052e4_000000, 0x2f828_0052fa_000000,
  0x2f829_005305_000000, 0x2f82a_005306_000000, 0x2f82b_005317_000000, 0x2f82c_005349_000000,
  0x2f82d_005351_000000, 0x2f82e_00535a_000000, 0x2f82f_005373_000000, 0x2f830_00537d_000000,
  0x2f831_00537f_000000, 0x2f832_00537f_000000, 0x2f833_00537f_000000, 0x2f834_020a2c_000000,
  0x2f835_007070_000000, 0x2f836_0053ca_000000, 0x2f837_0053df_000000, 0x2f838_020b63_000000,
  0x2f839_0053eb_000000, 0x2f83a_0053f1_000000, 0x2f83b_005406_000000, 0x2f83c_00549e_000000,
  0x2f83d_005438_000000, 0x2f83e_005448_000000, 0x2f83f_005468_000000, 0x2f840_0054a2_000000,
  0x2f841_0054f6_000000, 0x2f842_005510_000000, 0x2f843_005553_000000, 0x2f844_005563_000000,
  0x2f845_005584_000000, 0x2f846_005584_000000, 0x2f847_005599_000000, 0x2f848_0055ab_000000,
  0x2f849_0055b3_000000, 0x2f84a_0055c2_000000, 0x2f84b_005716_000000, 0x2f84c_005606_000000,
  0x2f84d_005717_000000, 0x2f84e_005651_000000, 0x2f84f_005674_000000, 0x2f850_005207_000000,
  0x2f851_0058ee_000000, 0x2f852_0057ce_000000, 0x2f853_0057f4_000000, 0x2f854_00580d_000000,
  0x2f855_00578b_000000, 0x2f856_005832_000000, 0x2f857_005831_000000, 0x2f858_0058ac_000000,
  0x2f859_0214e4_000000, 0x2f85a_0058f2_000000, 0x2f85b_0058f7_000000, 0x2f85c_005906_000000,
  0x2f85d_00591a_000000, 0x2f85e_005922_000000, 0x2f85f_005962_000000, 0x2f860_0216a8_000000,
  0x2f861_0216ea_000000, 0x2f862_0059ec_000000, 0x2f863_005a1b_000000, 0x2f864_005a27_000000,
  0x2f865_0059d8_000000, 0x2f866_005a66_000000, 0x2f867_0036ee_000000, 0x2f868_0036fc_000000,
  0x2f869_005b08_000000, 0x2f86a_005b3e_000000, 0x2f86b_005b3e_000000, 0x2f86c_0219c8_000000,
  0x2f86d_005bc3_000000, 0x2f86e_005bd8_000000, 0x2f86f_005be7_000000, 0x2f870_005bf3_000000,
  0x2f871_021b18_000000, 0x2f872_005bff_000000, 0x2f873_005c06_000000, 0x2f874_005f53_000000,
  0x2f875_005c22_000000, 0x2f876_003781_000000, 0x2f877_005c60_000000, 0x2f878_005c6e_000000,
  0x2f879_005cc0_000000, 0x2f87a_005c8d_000000, 0x2f87b_021de4_000000, 0x2f87c_005d43_000000,
  0x2f87d_021de6_000000, 0x2f87e_005d6e_000000, 0x2f87f_005d6b_000000, 0x2f880_005d7c_000000,
  0x2f881_005de1_000000, 0x2f882_005de2_000000, 0x2f883_00382f_000000, 0x2f884_005dfd_000000,
  0x2f885_005e28_000000, 0x2f886_005e3d_000000, 0x2f887_005e69_000000, 0x2f888_003862_000000,
  0x2f889_022183_000000, 0x2f88a_00387c_000000, 0x2f88b_005eb0_000000, 0x2f88c_005eb3_000000,
  0x2f88d_005eb6_000000, 0x2f88e_005eca_000000, 0x2f88f_02a392_000000, 0x2f890_005efe_000000,
  0x2f891_022331_000000, 0x2f892_022331_000000, 0x2f893_008201_000000, 0x2f894_005f22_000000,
  0x2f895_005f22_000000, 0x2f896_0038c7_000000, 0x2f897_0232b8_000000, 0x2f898_0261da_000000,
  0x2f899_005f62_000000, 0x2f89a_005f6b_000000, 0x2f89b_0038e3_000000, 0x2f89c_005f9a_000000,
  0x2f89d_005fcd_000000, 0x2f89e_005fd7_000000, 0x2f89f_005ff9_000000, 0x2f8a0_006081_000000,
  0x2f8a1_00393a_000000, 0x2f8a2_00391c_000000, 0x2f8a3_006094_000000, 0x2f8a4_0226d4_000000,
  0x2f8a5_0060c7_000000, 0x2f8a6_006148_000000, 0x2f8a7_00614c_000000, 0x2f8a8_00614e_000000,
  0x2f8a9_00614c_000000, 0x2f8aa_00617a_000000, 0x2f8ab_00618e_000000, 0x2f8ac_0061b2_000000,
  0x2f8ad_0061a4_000000, 0x2f8ae_0061af_000000, 0x2f8af_0061de_000000, 0x2f8b0_0061f2_000000,
  0x2f8b1_0061f6_000000, 0x2f8b2_006210_000000, 0x2f8b3_00621b_000000, 0x2f8b4_00625d_000000,
  0x2f8b5_0062b1_000000, 0x2f8b6_0062d4_000000, 0x2f8b7_006350_000000, 0x2f8b8_022b0c_000000,
  0x2f8b9_00633d_000000, 0x2f8ba_0062fc_000000, 0x2f8bb_006368_000000, 0x2f8bc_006383_000000,
  0x2f8bd_0063e4_000000, 0x2f8be_022bf1_000000, 0x2f8bf_006422_000000, 0x2f8c0_0063c5_000000,
  0x2f8c1_0063a9_000000, 0x2f8c2_003a2e_000000, 0x2f8c3_006469_000000, 0x2f8c4_00647e_000000,
  0x2f8c5_00649d_000000, 0x2f8c6_006477_000000, 0x2f8c7_003a6c_000000, 0x2f8c8_00654f_000000,
  0x2f8c9_00656c_000000, 0x2f8ca_02300a_000000, 0x2f8cb_0065e3_000000, 0x2f8cc_0066f8_000000,
  0x2f8cd_006649_000000, 0x2f8ce_003b19_000000, 0x2f8cf_006691_000000, 0x2f8d0_003b08_000000,
  0x2f8d1_003ae4_000000, 0x2f8d2_005192_000000, 0x2f8d3_005195_000000, 0x2f8d4_006700_000000,
  0x2f8d5_00669c_000000, 0x2f8d6_0080ad_000000, 0x2f8d7_0043d9_000000, 0x2f8d8_006717_000000,
  0x2f8d9_00671b_000000, 0x2f8da_006721_000000, 0x2f8db_00675e_000000, 0x2f8dc_006753_000000,
  0x2f8dd_0233c3_000000, 0x2f8de_003b49_000000, 0x2f8df_0067fa_000000, 0x2f8e0_006785_000000,
  0x2f8e1_006852_000000, 0x2f8e2_006885_000000, 0x2f8e3_02346d_000000, 0x2f8e4_00688e_000000,
  0x2f8e5_00681f_000000, 0x2f8e6_006914_000000, 0x2f8e7_003b9d_000000, 0x2f8e8_006942_000000,
  0x2f8e9_0069a3_000000, 0x2f8ea_0069ea_000000, 0x2f8eb_006aa8_000000, 0x2f8ec_0236a3_000000,
  0x2f8ed_006adb_000000, 0x2f8ee_003c18_000000, 0x2f8ef_006b21_000000, 0x2f8f0_0238a7_000000,
  0x2f8f1_006b54_000000, 0x2f8f2_003c4e_000000, 0x2f8f3_006b72_000000, 0x2f8f4_006b9f_000000,
  0x2f8f5_006bba_000000, 0x2f8f6_006bbb_000000, 0x2f8f7_023a8d_000000, 0x2f8f8_021d0b_000000,
  0x2f8f9_023afa_000000, 0x2f8fa_006c4e_000000, 0x2f8fb_023cbc_000000, 0x2f8fc_006cbf_000000,
  0x2f8fd_006ccd_000000, 0x2f8fe_006c67_000000, 0x2f8ff_006d16_000000, 0x2f900_006d3e_000000,
  0x2f901_006d77_000000, 0x2f902_006d41_000000, 0x2f903_006d69_000000, 0x2f904_006d78_000000,
  0x2f905_006d85_000000, 0x2f906_023d1e_000000, 0x2f907_006d34_000000, 0x2f908_006e2f_000000,
  0x2f909_006e6e_000000, 0x2f90a_003d33_000000, 0x2f90b_006ecb_000000, 0x2f90c_006ec7_000000,
  0x2f90d_023ed1_000000, 0x2f90e_006df9_000000, 0x2f90f_006f6e_000000, 0x2f910_023f5e_000000,
  0x2f911_023f8e_000000, 0x2f912_006fc6_000000, 0x2f913_007039_000000, 0x2f914_00701e_000000,
  0x2f915_00701b_000000, 0x2f916_003d96_000000, 0x2f917_00704a_000000, 0x2f918_00707d_000000,
  0x2f919_007077_000000, 0x2f91a_0070ad_000000, 0x2f91b_020525_000000, 0x2f91c_007145_000000,
  0x2f91d_024263_000000, 0x2f91e_00719c_000000, 0x2f91f_0243ab_000000, 0x2f920_007228_000000,
  0x2f921_007235_000000, 0x2f922_007250_000000, 0x2f923_024608_000000, 0x2f924_007280_000000,
  0x2f925_007295_000000, 0x2f926_024735_000000, 0x2f927_024814_000000, 0x2f928_00737a_000000,
  0x2f929_00738b_000000, 0x2f92a_003eac_000000, 0x2f92b_0073a5_000000, 0x2f92c_003eb8_000000,
  0x2f92d_003eb8_000000, 0x2f92e_007447_000000, 0x2f92f_00745c_000000, 0x2f930_007471_000000,
  0x2f931_007485_000000, 0x2f932_0074ca_000000, 0x2f933_003f1b_000000, 0x2f934_007524_000000,
  0x2f935_024c36_000000, 0x2f936_00753e_000000, 0x2f937_024c92_000000, 0x2f938_007570_000000,
  0x2f939_02219f_000000, 0x2f93a_007610_000000, 0x2f93b_024fa1_000000, 0x2f93c_024fb8_000000,
  0x2f93d_025044_000000, 0x2f93e_003ffc_000000, 0x2f93f_004008_000000, 0x2f940_0076f4_000000,
  0x2f941_0250f3_000000, 0x2f942_0250f2_000000, 0x2f943_025119_000000, 0x2f944_025133_000000,
  0x2f945_00771e_000000, 0x2f946_00771f_000000, 0x2f947_00771f_000000, 0x2f948_00774a_000000,
  0x2f949_004039_000000, 0x2f94a_00778b_000000, 0x2f94b_004046_000000, 0x2f94c_004096_000000,
  0x2f94d_02541d_000000, 0x2f94e_00784e_000000, 0x2f94f_00788c_000000, 0x2f950_0078cc_000000,
  0x2f951_0040e3_000000, 0x2f952_025626_000000, 0x2f953_007956_000000, 0x2f954_02569a_000000,
  0x2f955_0256c5_000000, 0x2f956_00798f_000000, 0x2f957_0079eb_000000, 0x2f958_00412f_000000,
  0x2f959_007a40_000000, 0x2f95a_007a4a_000000, 0x2f95b_007a4f_000000, 0x2f95c_02597c_000000,
  0x2f95d_025aa7_000000, 0x2f95e_025aa7_000000, 0x2f95f_007aee_000000, 0x2f960_004202_000000,
  0x2f961_025bab_000000, 0x2f962_007bc6_000000, 0x2f963_007bc9_000000, 0x2f964_004227_000000,
  0x2f965_025c80_000000, 0x2f966_007cd2_000000, 0x2f967_0042a0_000000, 0x2f968_007ce8_000000,
  0x2f969_007ce3_000000, 0x2f96a_007d00_000000, 0x2f96b_025f86_000000, 0x2f96c_007d63_000000,
  0x2f96d_004301_000000, 0x2f96e_007dc7_000000, 0x2f96f_007e02_000000, 0x2f970_007e45_000000,
  0x2f971_004334_000000, 0x2f972_026228_000000, 0x2f973_026247_000000, 0x2f974_004359_000000,
  0x2f975_0262d9_000000, 0x2f976_007f7a_000000, 0x2f977_02633e_000000, 0x2f978_007f95_000000,
  0x2f979_007ffa_000000, 0x2f97a_008005_000000, 0x2f97b_0264da_000000, 0x2f97c_026523_000000,
  0x2f97d_008060_000000, 0x2f97e_0265a8_000000, 0x2f97f_008070_000000, 0x2f980_02335f_000000,
  0x2f981_0043d5_000000, 0x2f982_0080b2_000000, 0x2f983_008103_000000, 0x2f984_00440b_000000,
  0x2f985_00813e_000000, 0x2f986_005ab5_000000, 0x2f987_0267a7_000000, 0x2f988_0267b5_000000,
  0x2f989_023393_000000, 0x2f98a_02339c_000000, 0x2f98b_008201_000000, 0x2f98c_008204_000000,
  0x2f98d_008f9e_000000, 0x2f98e_00446b_000000, 0x2f98f_008291_000000, 0x2f990_00828b_000000,
  0x2f991_00829d_000000, 0x2f992_0052b3_000000, 0x2f993_0082b1_000000, 0x2f994_0082b3_000000,
  0x2f995_0082bd_000000, 0x2f996_0082e6_000000, 0x2f997_026b3c_000000, 0x2f998_0082e5_000000,
  0x2f999_00831d_000000, 0x2f99a_008363_000000, 0x2f99b_0083ad_000000, 0x2f99c_008323_000000,
  0x2f99d_0083bd_000000, 0x2f99e_0083e7_000000, 0x2f99f_008457_000000, 0x2f9a0_008353_000000,
  0x2f9a1_0083ca_000000, 0x2f9a2_0083cc_000000, 0x2f9a3_0083dc_000000, 0x2f9a4_026c36_000000,
  0x2f9a5_026d6b_000000, 0x2f9a6_026cd5_000000, 0x2f9a7_00452b_000000, 0x2f9a8_0084f1_000000,
  0x2f9a9_0084f3_000000, 0x2f9aa_008516_000000, 0x2f9ab_0273ca_000000, 0x2f9ac_008564_000000,
  0x2f9ad_026f2c_000000, 0x2f9ae_00455d_000000, 0x2f9af_004561_000000, 0x2f9b0_026fb1_000000,
  0x2f9b1_0270d2_000000, 0x2f9b2_00456b_000000, 0x2f9b3_008650_000000, 0x2f9b4_00865c_000000,
  0x2f9b5_008667_000000, 0x2f9b6_008669_000000, 0x2f9b7_0086a9_000000, 0x2f9b8_008688_000000,
  0x2f9b9_00870e_000000, 0x2f9ba_0086e2_000000, 0x2f9bb_008779_000000, 0x2f9bc_008728_000000,
  0x2f9bd_00876b_000000, 0x2f9be_008786_000000, 0x2f9bf_0045d7_000000, 0x2f9c0_0087e1_000000,
  0x2f9c1_008801_000000, 0x2f9c2_0045f9_000000, 0x2f9c3_008860_000000, 0x2f9c4_008863_000000,
  0x2f9c5_027667_000000, 0x2f9c6_0088d7_000000, 0x2f9c7_0088de_000000, 0x2f9c8_004635_000000,
  0x2f9c9_0088fa_000000, 0x2f9ca_0034bb_000000, 0x2f9cb_0278ae_000000, 0x2f9cc_027966_000000,
  0x2f9cd_0046be_000000, 0x2f9ce_0046c7_000000, 0x2f9cf_008aa0_000000, 0x2f9d0_008aed_000000,
  0x2f9d1_008b8a_000000, 0x2f9d2_008c55_000000, 0x2f9d3_027ca8_000000, 0x2f9d4_008cab_000000,
  0x2f9d5_008cc1_000000, 0x2f9d6_008d1b_000000, 0x2f9d7_008d77_000000, 0x2f9d8_027f2f_000000,
  0x2f9d9_020804_000000, 0x2f9da_008dcb_000000, 0x2f9db_008dbc_000000, 0x2f9dc_008df0_000000,
  0x2f9dd_0208de_000000, 0x2f9de_008ed4_000000, 0x2f9df_008f38_000000, 0x2f9e0_0285d2_000000,
  0x2f9e1_0285ed_000000, 0x2f9e2_009094_000000, 0x2f9e3_0090f1_000000, 0x2f9e4_009111_000000,
  0x2f9e5_02872e_000000, 0x2f9e6_00911b_000000, 0x2f9e7_009238_000000, 0x2f9e8_0092d7_000000,
  0x2f9e9_0092d8_000000, 0x2f9ea_00927c_000000, 0x2f9eb_0093f9_000000, 0x2f9ec_009415_000000,
  0x2f9ed_028bfa_000000, 0x2f9ee_00958b_000000, 0x2f9ef_004995_000000, 0x2f9f0_0095b7_000000,
  0x2f9f1_028d77_000000, 0x2f9f2_0049e6_000000, 0x2f9f3_0096c3_000000, 0x2f9f4_005db2_000000,
  0x2f9f5_009723_000000, 0x2f9f6_029145_000000, 0x2f9f7_02921a_000000, 0x2f9f8_004a6e_000000,
  0x2f9f9_004a76_000000, 0x2f9fa_0097e0_000000, 0x2f9fb_02940a_000000, 0x2f9fc_004ab2_000000,
  0x2f9fd_029496_000000, 0x2f9fe_00980b_000000, 0x2f9ff_00980b_000000, 0x2fa00_009829_000000,
  0x2fa01_0295b6_000000, 0x2fa02_0098e2_000000, 0x2fa03_004b33_000000, 0x2fa04_009929_000000,
  0x2fa05_0099a7_000000, 0x2fa06_0099c2_000000, 0x2fa07_0099fe_000000, 0x2fa08_004bce_000000,
  0x2fa09_029b30_000000, 0x2fa0a_009b12_000000, 0x2fa0b_009c40_000000, 0x2fa0c_009cfd_000000,
  0x2fa0d_004cce_000000, 0x2fa0e_004ced_000000, 0x2fa0f_009d67_000000, 0x2fa10_02a0ce_000000,
  0x2fa11_004cf8_000000, 0x2fa12_02a105_000000, 0x2fa13_02a20e_000000, 0x2fa14_02a291_000000,
  0x2fa15_009ebb_000000, 0x2fa16_004d56_000000, 0x2fa17_009ef9_000000, 0x2fa18_009efe_000000,
  0x2fa19_009f05_000000, 0x2fa1a_009f0f_000000, 0x2fa1b_009f16_000000, 0x2fa1c_009f3b_000000,
  0x2fa1d_02a600_000000]

/-- Rows of a character and its two parts. -/
def decompositionTable : CodeTable := .ofPacked 2 decompositions

/-- Numbers `a_b_c`: `a` followed by `b` composes to `c`. -/
def compositions : List Nat := [
  0x3c_000338_00226e, 0x3d_000338_002260, 0x3e_000338_00226f, 0x41_000300_0000c0,
  0x41_000301_0000c1, 0x41_000302_0000c2, 0x41_000303_0000c3, 0x41_000304_000100,
  0x41_000306_000102, 0x41_000307_000226, 0x41_000308_0000c4, 0x41_000309_001ea2,
  0x41_00030a_0000c5, 0x41_00030c_0001cd, 0x41_00030f_000200, 0x41_000311_000202,
  0x41_000323_001ea0, 0x41_000325_001e00, 0x41_000328_000104, 0x42_000307_001e02,
  0x42_000323_001e04, 0x42_000331_001e06, 0x43_000301_000106, 0x43_000302_000108,
  0x43_000307_00010a, 0x43_00030c_00010c, 0x43_000327_0000c7, 0x44_000307_001e0a,
  0x44_00030c_00010e, 0x44_000323_001e0c, 0x44_000327_001e10, 0x44_00032d_001e12,
  0x44_000331_001e0e, 0x45_000300_0000c8, 0x45_000301_0000c9, 0x45_000302_0000ca,
  0x45_000303_001ebc, 0x45_000304_000112, 0x45_000306_000114, 0x45_000307_000116,
  0x45_000308_0000cb, 0x45_000309_001eba, 0x45_00030c_00011a, 0x45_00030f_000204,
  0x45_000311_000206, 0x45_000323_001eb8, 0x45_000327_000228, 0x45_000328_000118,
  0x45_00032d_001e18, 0x45_000330_001e1a, 0x46_000307_001e1e, 0x47_000301_0001f4,
  0x47_000302_00011c, 0x47_000304_001e20, 0x47_000306_00011e, 0x47_000307_000120,
  0x47_00030c_0001e6, 0x47_000327_000122, 0x48_000302_000124, 0x48_000307_001e22,
  0x48_000308_001e26, 0x48_00030c_00021e, 0x48_000323_001e24, 0x48_000327_001e28,
  0x48_00032e_001e2a, 0x49_000300_0000cc, 0x49_000301_0000cd, 0x49_000302_0000ce,
  0x49_000303_000128, 0x49_000304_00012a, 0x49_000306_00012c, 0x49_000307_000130,
  0x49_000308_0000cf, 0x49_000309_001ec8, 0x49_00030c_0001cf, 0x49_00030f_000208,
  0x49_000311_00020a, 0x49_000323_001eca, 0x49_000328_00012e, 0x49_000330_001e2c,
  0x4a_000302_000134, 0x4b_000301_001e30, 0x4b_00030c_0001e8, 0x4b_000323_001e32,
  0x4b_000327_000136, 0x4b_000331_001e34, 0x4c_000301_000139, 0x4c_00030c_00013d,
  0x4c_000323_001e36, 0x4c_000327_00013b, 0x4c_00032d_001e3c, 0x4c_000331_001e3a,
  0x4d_000301_001e3e, 0x4d_000307_001e40, 0x4d_000323_001e42, 0x4e_000300_0001f8,
  0x4e_000301_000143, 0x4e_000303_0000d1, 0x4e_000307_001e44, 0x4e_00030c_000147,
  0x4e_000323_001e46, 0x4e_000327_000145, 0x4e_00032d_001e4a, 0x4e_000331_001e48,
  0x4f_000300_0000d2, 0x4f_000301_0000d3, 0x4f_000302_0000d4, 0x4f_000303_0000d5,
  0x4f_000304_00014c, 0x4f_000306_00014e, 0x4f_000307_00022e, 0x4f_000308_0000d6,
  0x4f_000309_001ece, 0x4f_00030b_000150, 0x4f_00030c_0001d1, 0x4f_00030f_00020c,
  0x4f_000311_00020e, 0x4f_00031b_0001a0, 0x4f_000323_001ecc, 0x4f_000328_0001ea,
  0x50_000301_001e54, 0x50_000307_001e56, 0x52_000301_000154, 0x52_000307_001e58,
  0x52_00030c_000158, 0x52_00030f_000210, 0x52_000311_000212, 0x52_000323_001e5a,
  0x52_000327_000156, 0x52_000331_001e5e, 0x53_000301_00015a, 0x53_000302_00015c,
  0x53_000307_001e60, 0x53_00030c_000160, 0x53_000323_001e62, 0x53_000326_000218,
  0x53_000327_00015e, 0x54_000307_001e6a, 0x54_00030c_000164, 0x54_000323_001e6c,
  0x54_000326_00021a, 0x54_000327_000162, 0x54_00032d_001e70, 0x54_000331_001e6e,
  0x55_000300_0000d9, 0x55_000301_0000da, 0x55_000302_0000db, 0x55_000303_000168,
  0x55_000304_00016a, 0x55_000306_00016c, 0x55_000308_0000dc, 0x55_000309_001ee6,
  0x55_00030a_00016e, 0x55_00030b_000170, 0x55_00030c_0001d3, 0x55_00030f_000214,
  0x55_000311_000216, 0x55_00031b_0001af, 0x55_000323_001ee4, 0x55_000324_001e72,
  0x55_000328_000172, 0x55_00032d_001e76, 0x55_000330_001e74, 0x56_000303_001e7c,
  0x56_000323_001e7e, 0x57_000300_001e80, 0x57_000301_001e82, 0x57_000302_000174,
  0x57_000307_001e86, 0x57_000308_001e84, 0x57_000323_001e88, 0x58_000307_001e8a,
  0x58_000308_001e8c, 0x59_000300_001ef2, 0x59_000301_0000dd, 0x59_000302_000176,
  0x59_000303_001ef8, 0x59_000304_000232, 0x59_000307_001e8e, 0x59_000308_000178,
  0x59_000309_001ef6, 0x59_000323_001ef4, 0x5a_000301_000179, 0x5a_000302_001e90,
  0x5a_000307_00017b, 0x5a_00030c_00017d, 0x5a_000323_001e92, 0x5a_000331_001e94,
  0x61_000300_0000e0, 0x61_000301_0000e1, 0x61_000302_0000e2, 0x61_000303_0000e3,
  0x61_000304_000101, 0x61_000306_000103, 0x61_000307_000227, 0x61_000308_0000e4,
  0x61_000309_001ea3, 0x61_00030a_0000e5, 0x61_00030c_0001ce, 0x61_00030f_000201,
  0x61_000311_000203, 0x61_000323_001ea1, 0x61_000325_001e01, 0x61_000328_000105,
  0x62_000307_001e03, 0x62_000323_001e05, 0x62_000331_001e07, 0x63_000301_000107,
  0x63_000302_000109, 0x63_000307_00010b, 0x63_00030c_00010d, 0x63_000327_0000e7,
  0x64_000307_001e0b, 0x64_00030c_00010f, 0x64_000323_001e0d, 0x64_000327_001e11,
  0x64_00032d_001e13, 0x64_000331_001e0f, 0x65_000300_0000e8, 0x65_000301_0000e9,
  0x65_000302_0000ea, 0x65_000303_001ebd, 0x65_000304_000113, 0x65_000306_000115,
  0x65_000307_000117, 0x65_000308_0000eb, 0x65_000309_001ebb, 0x65_00030c_00011b,
  0x65_00030f_000205, 0x65_000311_000207, 0x65_000323_001eb9, 0x65_000327_000229,
  0x65_000328_000119, 0x65_00032d_001e19, 0x65_000330_001e1b, 0x66_000307_001e1f,
  0x67_000301_0001f5, 0x67_000302_00011d, 0x67_000304_001e21, 0x67_000306_00011f,
  0x67_000307_000121, 0x67_00030c_0001e7, 0x67_000327_000123, 0x68_000302_000125,
  0x68_000307_001e23, 0x68_000308_001e27, 0x68_00030c_00021f, 0x68_000323_001e25,
  0x68_000327_001e29, 0x68_00032e_001e2b, 0x68_000331_001e96, 0x69_000300_0000ec,
  0x69_000301_0000ed, 0x69_000302_0000ee, 0x69_000303_000129, 0x69_000304_00012b,
  0x69_000306_00012d, 0x69_000308_0000ef, 0x69_000309_001ec9, 0x69_00030c_0001d0,
  0x69_00030f_000209, 0x69_000311_00020b, 0x69_000323_001ecb, 0x69_000328_00012f,
  0x69_000330_001e2d, 0x6a_000302_000135, 0x6a_00030c_0001f0, 0x6b_000301_001e31,
  0x6b_00030c_0001e9, 0x6b_000323_001e33, 0x6b_000327_000137, 0x6b_000331_001e35,
  0x6c_000301_00013a, 0x6c_00030c_00013e, 0x6c_000323_001e37, 0x6c_000327_00013c,
  0x6c_00032d_001e3d, 0x6c_000331_001e3b, 0x6d_000301_001e3f, 0x6d_000307_001e41,
  0x6d_000323_001e43, 0x6e_000300_0001f9, 0x6e_000301_000144, 0x6e_000303_0000f1,
  0x6e_000307_001e45, 0x6e_00030c_000148, 0x6e_000323_001e47, 0x6e_000327_000146,
  0x6e_00032d_001e4b, 0x6e_000331_001e49, 0x6f_000300_0000f2, 0x6f_000301_0000f3,
  0x6f_000302_0000f4, 0x6f_000303_0000f5, 0x6f_000304_00014d, 0x6f_000306_00014f,
  0x6f_000307_00022f, 0x6f_000308_0000f6, 0x6f_000309_001ecf, 0x6f_00030b_000151,
  0x6f_00030c_0001d2, 0x6f_00030f_00020d, 0x6f_000311_00020f, 0x6f_00031b_0001a1,
  0x6f_000323_001ecd, 0x6f_000328_0001eb, 0x70_000301_001e55, 0x70_000307_001e57,
  0x72_000301_000155, 0x72_000307_001e59, 0x72_00030c_000159, 0x72_00030f_000211,
  0x72_000311_000213, 0x72_000323_001e5b, 0x72_000327_000157, 0x72_000331_001e5f,
  0x73_000301_00015b, 0x73_000302_00015d, 0x73_000307_001e61, 0x73_00030c_000161,
  0x73_000323_001e63, 0x73_000326_000219, 0x73_000327_00015f, 0x74_000307_001e6b,
  0x74_000308_001e97, 0x74_00030c_000165, 0x74_000323_001e6d, 0x74_000326_00021b,
  0x74_000327_000163, 0x74_00032d_001e71, 0x74_000331_001e6f, 0x75_000300_0000f9,
  0x75_000301_0000fa, 0x75_000302_0000fb, 0x75_000303_000169, 0x75_000304_00016b,
  0x75_000306_00016d, 0x75_000308_0000fc, 0x75_000309_001ee7, 0x75_00030a_00016f,
  0x75_00030b_000171, 0x75_00030c_0001d4, 0x75_00030f_000215, 0x75_000311_000217,
  0x75_00031b_0001b0, 0x75_000323_001ee5, 0x75_000324_001e73, 0x75_000328_000173,
  0x75_00032d_001e77, 0x75_000330_001e75, 0x76_000303_001e7d, 0x76_000323_001e7f,
  0x77_000300_001e81, 0x77_000301_001e83, 0x77_000302_000175, 0x77_000307_001e87,
  0x77_000308_001e85, 0x77_00030a_001e98, 0x77_000323_001e89, 0x78_000307_001e8b,
  0x78_000308_001e8d, 0x79_000300_001ef3, 0x79_000301_0000fd, 0x79_000302_000177,
  0x79_000303_001ef9, 0x79_000304_000233, 0x79_000307_001e8f, 0x79_000308_0000ff,
  0x79_000309_001ef7, 0x79_00030a_001e99, 0x79_000323_001ef5, 0x7a_000301_00017a,
  0x7a_000302_001e91, 0x7a_000307_00017c, 0x7a_00030c_00017e, 0x7a_000323_001e93,
  0x7a_000331_001e95, 0xa8_000300_001fed, 0xa8_000301_000385, 0xa8_000342_001fc1,
  0xc2_000300_001ea6, 0xc2_000301_001ea4, 0xc2_000303_001eaa, 0xc2_000309_001ea8,
  0xc4_000304_0001de, 0xc5_000301_0001fa, 0xc6_000301_0001fc, 0xc6_000304_0001e2,
  0xc7_000301_001e08, 0xca_000300_001ec0, 0xca_000301_001ebe, 0xca_000303_001ec4,
  0xca_000309_001ec2, 0xcf_000301_001e2e, 0xd4_000300_001ed2, 0xd4_000301_001ed0,
  0xd4_000303_001ed6, 0xd4_000309_001ed4, 0xd5_000301_001e4c, 0xd5_000304_00022c,
  0xd5_000308_001e4e, 0xd6_000304_00022a, 0xd8_000301_0001fe, 0xdc_000300_0001db,
  0xdc_000301_0001d7, 0xdc_000304_0001d5, 0xdc_00030c_0001d9, 0xe2_000300_001ea7,
  0xe2_000301_001ea5, 0xe2_000303_001eab, 0xe2_000309_001ea9, 0xe4_000304_0001df,
  0xe5_000301_0001fb, 0xe6_000301_0001fd, 0xe6_000304_0001e3, 0xe7_000301_001e09,
  0xea_000300_001ec1, 0xea_000301_001ebf, 0xea_000303_001ec5, 0xea_000309_001ec3,
  0xef_000301_001e2f, 0xf4_000300_001ed3, 0xf4_000301_001ed1, 0xf4_000303_001ed7,
  0xf4_000309_001ed5, 0xf5_000301_001e4d, 0xf5_000304_00022d, 0xf5_000308_001e4f,
  0xf6_000304_00022b, 0xf8_000301_0001ff, 0xfc_000300_0001dc, 0xfc_000301_0001d8,
  0xfc_000304_0001d6, 0xfc_00030c_0001da, 0x102_000300_001eb0, 0x102_000301_001eae,
  0x102_000303_001eb4, 0x102_000309_001eb2, 0x103_000300_001eb1, 0x103_000301_001eaf,
  0x103_000303_001eb5, 0x103_000309_001eb3, 0x112_000300_001e14, 0x112_000301_001e16,
  0x113_000300_001e15, 0x113_000301_001e17, 0x14c_000300_001e50, 0x14c_000301_001e52,
  0x14d_000300_001e51, 0x14d_000301_001e53, 0x15a_000307_001e64, 0x15b_000307_001e65,
  0x160_000307_001e66, 0x161_000307_001e67, 0x168_000301_001e78, 0x169_000301_001e79,
  0x16a_000308_001e7a, 0x16b_000308_001e7b, 0x17f_000307_001e9b, 0x1a0_000300_001edc,
  0x1a0_000301_001eda, 0x1a0_000303_001ee0, 0x1a0_000309_001ede, 0x1a0_000323_001ee2,
  0x1a1_000300_001edd, 0x1a1_000301_001edb, 0x1a1_000303_001ee1, 0x1a1_000309_001edf,
  0x1a1_000323_001ee3, 0x1af_000300_001eea, 0x1af_000301_001ee8, 0x1af_000303_001eee,
  0x1af_000309_001eec, 0x1af_000323_001ef0, 0x1b0_000300_001eeb, 0x1b0_000301_001ee9,
  0x1b0_000303_001eef, 0x1b0_000309_001eed, 0x1b0_000323_001ef1, 0x1b7_00030c_0001ee,
  0x1ea_000304_0001ec, 0x1eb_000304_0001ed, 0x226_000304_0001e0, 0x227_000304_0001e1,
  0x228_000306_001e1c, 0x229_000306_001e1d, 0x22e_000304_000230, 0x22f_000304_000231,
  0x292_00030c_0001ef, 0x391_000300_001fba, 0x391_000301_000386, 0x391_000304_001fb9,
  0x391_000306_001fb8, 0x391_000313_001f08, 0x391_000314_001f09, 0x391_000345_001fbc,
  0x395_000300_001fc8, 0x395_000301_000388, 0x395_000313_001f18, 0x395_000314_001f19,
  0x397_000300_001fca, 0x397_000301_000389, 0x397_000313_001f28, 0x397_000314_001f29,
  0x397_000345_001fcc, 0x399_000300_001fda, 0x399_000301_00038a, 0x399_000304_001fd9,
  0x399_000306_001fd8, 0x399_000308_0003aa, 0x399_000313_001f38, 0x399_000314_001f39,
  0x39f_000300_001ff8, 0x39f_000301_00038c, 0x39f_000313_001f48, 0x39f_000314_001f49,
  0x3a1_000314_001fec, 0x3a5_000300_001fea, 0x3a5_000301_00038e, 0x3a5_000304_001fe9,
  0x3a5_000306_001fe8, 0x3a5_000308_0003ab, 0x3a5_000314_001f59, 0x3a9_000300_001ffa,
  0x3a9_000301_00038f, 0x3a9_000313_001f68, 0x3a9_000314_001f69, 0x3a9_000345_001ffc,
  0x3ac_000345_001fb4, 0x3ae_000345_001fc4, 0x3b1_000300_001f70, 0x3b1_000301_0003ac,
  0x3b1_000304_001fb1, 0x3b1_000306_001fb0, 0x3b1_000313_001f00, 0x3b1_000314_001f01,
  0x3b1_000342_001fb6, 0x3b1_000345_001fb3, 0x3b5_000300_001f72, 0x3b5_000301_0003ad,
  0x3b5_000313_001f10, 0x3b5_000314_001f11, 0x3b7_000300_001f74, 0x3b7_000301_0003ae,
  0x3b7_000313_001f20, 0x3b7_000314_001f21, 0x3b7_000342_001fc6, 0x3b7_000345_001fc3,
  0x3b9_000300_001f76, 0x3b9_000301_0003af, 0x3b9_000304_001fd1, 0x3b9_000306_001fd0,
  0x3b9_000308_0003ca, 0x3b9_000313_001f30, 0x3b9_000314_001f31, 0x3b9_000342_001fd6,
  0x3bf_000300_001f78, 0x3bf_000301_0003cc, 0x3bf_000313_001f40, 0x3bf_000314_001f41,
  0x3c1_000313_001fe4, 0x3c1_000314_001fe5, 0x3c5_000300_001f7a, 0x3c5_000301_0003cd,
  0x3c5_000304_001fe1, 0x3c5_000306_001fe0, 0x3c5_000308_0003cb, 0x3c5_000313_001f50,
  0x3c5_000314_001f51, 0x3c5_000342_001fe6, 0x3c9_000300_001f7c, 0x3c9_000301_0003ce,
  0x3c9_000313_001f60, 0x3c9_000314_001f61, 0x3c9_000342_001ff6, 0x3c9_000345_001ff3,
  0x3ca_000300_001fd2, 0x3ca_000301_000390, 0x3ca_000342_001fd7, 0x3cb_000300_001fe2,
  0x3cb_000301_0003b0, 0x3cb_000342_001fe7, 0x3ce_000345_001ff4, 0x3d2_000301_0003d3,
  0x3d2_000308_0003d4, 0x406_000308_000407, 0x410_000306_0004d0, 0x410_000308_0004d2,
  0x413_000301_000403, 0x415_000300_000400, 0x415_000306_0004d6, 0x415_000308_000401,
  0x416_000306_0004c1, 0x416_000308_0004dc, 0x417_000308_0004de, 0x418_000300_00040d,
  0x418_000304_0004e2, 0x418_000306_000419, 0x418_000308_0004e4, 0x41a_000301_00040c,
  0x41e_000308_0004e6, 0x423_000304_0004ee, 0x423_000306_00040e, 0x423_000308_0004f0,
  0x423_00030b_0004f2, 0x427_000308_0004f4, 0x42b_000308_0004f8, 0x42d_000308_0004ec,
  0x430_000306_0004d1, 0x430_000308_0004d3, 0x433_000301_000453, 0x435_000300_000450,
  0x435_000306_0004d7, 0x435_000308_000451, 0x436_000306_0004c2, 0x436_000308_0004dd,
  0x437_000308_0004df, 0x438_000300_00045d, 0x438_000304_0004e3, 0x438_000306_000439,
  0x438_000308_0004e5, 0x43a_000301_00045c, 0x43e_000308_0004e7, 0x443_000304_0004ef,
  0x443_000306_00045e, 0x443_000308_0004f1, 0x443_00030b_0004f3, 0x447_000308_0004f5,
  0x44b_000308_0004f9, 0x44d_000308_0004ed, 0x456_000308_000457, 0x474_00030f_000476,
  0x475_00030f_000477, 0x4d8_000308_0004da, 0x4d9_000308_0004db, 0x4e8_000308_0004ea,
  0x4e9_000308_0004eb, 0x627_000653_000622, 0x627_000654_000623, 0x627_000655_000625,
  0x648_000654_000624, 0x64a_000654_000626, 0x6c1_000654_0006c2, 0x6d2_000654_0006d3,
  0x6d5_000654_0006c0, 0x928_00093c_000929, 0x930_00093c_000931, 0x933_00093c_000934,
  0x9c7_0009be_0009cb, 0x9c7_0009d7_0009cc, 0xb47_000b3e_000b4b, 0xb47_000b56_000b48,
  0xb47_000b57_000b4c, 0xb92_000bd7_000b94, 0xbc6_000bbe_000bca, 0xbc6_000bd7_000bcc,
  0xbc7_000bbe_000bcb, 0xc46_000c56_000c48, 0xcbf_000cd5_000cc0, 0xcc6_000cc2_000cca,
  0xcc6_000cd5_000cc7, 0xcc6_000cd6_000cc8, 0xcca_000cd5_000ccb, 0xd46_000d3e_000d4a,
  0xd46_000d57_000d4c, 0xd47_000d3e_000d4b, 0xdd9_000dca_000dda, 0xdd9_000dcf_000ddc,
  0xdd9_000ddf_000dde, 0xddc_000dca_000ddd, 0x1025_00102e_001026, 0x1b05_001b35_001b06,
  0x1b07_001b35_001b08, 0x1b09_001b35_001b0a, 0x1b0b_001b35_001b0c, 0x1b0d_001b35_001b0e,
  0x1b11_001b35_001b12, 0x1b3a_001b35_001b3b, 0x1b3c_001b35_001b3d, 0x1b3e_001b35_001b40,
  0x1b3f_001b35_001b41, 0x1b42_001b35_001b43, 0x1e36_000304_001e38, 0x1e37_000304_001e39,
  0x1e5a_000304_001e5c, 0x1e5b_000304_001e5d, 0x1e62_000307_001e68, 0x1e63_000307_001e69,
  0x1ea0_000302_001eac, 0x1ea0_000306_001eb6, 0x1ea1_000302_001ead, 0x1ea1_000306_001eb7,
  0x1eb8_000302_001ec6, 0x1eb9_000302_001ec7, 0x1ecc_000302_001ed8, 0x1ecd_000302_001ed9,
  0x1f00_000300_001f02, 0x1f00_000301_001f04, 0x1f00_000342_001f06, 0x1f00_000345_001f80,
  0x1f01_000300_001f03, 0x1f01_000301_001f05, 0x1f01_000342_001f07, 0x1f01_000345_001f81,
  0x1f02_000345_001f82, 0x1f03_000345_001f83, 0x1f04_000345_001f84, 0x1f05_000345_001f85,
  0x1f06_000345_001f86, 0x1f07_000345_001f87, 0x1f08_000300_001f0a, 0x1f08_000301_001f0c,
  0x1f08_000342_001f0e, 0x1f08_000345_001f88, 0x1f09_000300_001f0b, 0x1f09_000301_001f0d,
  0x1f09_000342_001f0f, 0x1f09_000345_001f89, 0x1f0a_000345_001f8a, 0x1f0b_000345_001f8b,
  0x1f0c_000345_001f8c, 0x1f0d_000345_001f8d, 0x1f0e_000345_001f8e, 0x1f0f_000345_001f8f,
  0x1f10_000300_001f12, 0x1f10_000301_001f14, 0x1f11_000300_001f13, 0x1f11_000301_001f15,
  0x1f18_000300_001f1a, 0x1f18_000301_001f1c, 0x1f19_000300_001f1b, 0x1f19_000301_001f1d,
  0x1f20_000300_001f22, 0x1f20_000301_001f24, 0x1f20_000342_001f26, 0x1f20_000345_001f90,
  0x1f21_000300_001f23, 0x1f21_000301_001f25, 0x1f21_000342_001f27, 0x1f21_000345_001f91,
  0x1f22_000345_001f92, 0x1f23_000345_001f93, 0x1f24_000345_001f94, 0x1f25_000345_001f95,
  0x1f26_000345_001f96, 0x1f27_000345_001f97, 0x1f28_000300_001f2a, 0x1f28_000301_001f2c,
  0x1f28_000342_001f2e, 0x1f28_000345_001f98, 0x1f29_000300_001f2b, 0x1f29_000301_001f2d,
  0x1f29_000342_001f2f, 0x1f29_000345_001f99, 0x1f2a_000345_001f9a, 0x1f2b_000345_001f9b,
  0x1f2c_000345_001f9c, 0x1f2d_000345_001f9d, 0x1f2e_000345_001f9e, 0x1f2f_000345_001f9f,
  0x1f30_000300_001f32, 0x1f30_000301_001f34, 0x1f30_000342_001f36, 0x1f31_000300_001f33,
  0x1f31_000301_001f35, 0x1f31_000342_001f37, 0x1f38_000300_001f3a, 0x1f38_000301_001f3c,
  0x1f38_000342_001f3e, 0x1f39_000300_001f3b, 0x1f39_000301_001f3d, 0x1f39_000342_001f3f,
  0x1f40_000300_001f42, 0x1f40_000301_001f44, 0x1f41_000300_001f43, 0x1f41_000301_001f45,
  0x1f48_000300_001f4a, 0x1f48_000301_001f4c, 0x1f49_000300_001f4b, 0x1f49_000301_001f4d,
  0x1f50_000300_001f52, 0x1f50_000301_001f54, 0x1f50_000342_001f56, 0x1f51_000300_001f53,
  0x1f51_000301_001f55, 0x1f51_000342_001f57, 0x1f59_000300_001f5b, 0x1f59_000301_001f5d,
  0x1f59_000342_001f5f, 0x1f60_000300_001f62, 0x1f60_000301_001f64, 0x1f60_000342_001f66,
  0x1f60_000345_001fa0, 0x1f61_000300_001f63, 0x1f61_000301_001f65, 0x1f61_000342_001f67,
  0x1f61_000345_001fa1, 0x1f62_000345_001fa2, 0x1f63_000345_001fa3, 0x1f64_000345_001fa4,
  0x1f65_000345_001fa5, 0x1f66_000345_001fa6, 0x1f67_000345_001fa7, 0x1f68_000300_001f6a,
  0x1f68_000301_001f6c, 0x1f68_000342_001f6e, 0x1f68_000345_001fa8, 0x1f69_000300_001f6b,
  0x1f69_000301_001f6d, 0x1f69_000342_001f6f, 0x1f69_000345_001fa9, 0x1f6a_000345_001faa,
  0x1f6b_000345_001fab, 0x1f6c_000345_001fac, 0x1f6d_000345_001fad, 0x1f6e_000345_001fae,
  0x1f6f_000345_001faf, 0x1f70_000345_001fb2, 0x1f74_000345_001fc2, 0x1f7c_000345_001ff2,
  0x1fb6_000345_001fb7, 0x1fbf_000300_001fcd, 0x1fbf_000301_001fce, 0x1fbf_000342_001fcf,
  0x1fc6_000345_001fc7, 0x1ff6_000345_001ff7, 0x1ffe_000300_001fdd, 0x1ffe_000301_001fde,
  0x1ffe_000342_001fdf, 0x2190_000338_00219a, 0x2192_000338_00219b, 0x2194_000338_0021ae,
  0x21d0_000338_0021cd, 0x21d2_000338_0021cf, 0x21d4_000338_0021ce, 0x2203_000338_002204,
  0x2208_000338_002209, 0x220b_000338_00220c, 0x2223_000338_002224, 0x2225_000338_002226,
  0x223c_000338_002241, 0x2243_000338_002244, 0x2245_000338_002247, 0x2248_000338_002249,
  0x224d_000338_00226d, 0x2261_000338_002262, 0x2264_000338_002270, 0x2265_000338_002271,
  0x2272_000338_002274, 0x2273_000338_002275, 0x2276_000338_002278, 0x2277_000338_002279,
  0x227a_000338_002280, 0x227b_000338_002281, 0x227c_000338_0022e0, 0x227d_000338_0022e1,
  0x2282_000338_002284, 0x2283_000338_002285, 0x2286_000338_002288, 0x2287_000338_002289,
  0x2291_000338_0022e2, 0x2292_000338_0022e3, 0x22a2_000338_0022ac, 0x22a8_000338_0022ad,
  0x22a9_000338_0022ae, 0x22ab_000338_0022af, 0x22b2_000338_0022ea, 0x22b3_000338_0022eb,
  0x22b4_000338_0022ec, 0x22b5_000338_0022ed, 0x3046_003099_003094, 0x304b_003099_00304c,
  0x304d_003099_00304e, 0x304f_003099_003050, 0x3051_003099_003052, 0x3053_003099_003054,
  0x3055_003099_003056, 0x3057_003099_003058, 0x3059_003099_00305a, 0x305b_003099_00305c,
  0x305d_003099_00305e, 0x305f_003099_003060, 0x3061_003099_003062, 0x3064_003099_003065,
  0x3066_003099_003067, 0x3068_003099_003069, 0x306f_003099_003070, 0x306f_00309a_003071,
  0x3072_003099_003073, 0x3072_00309a_003074, 0x3075_003099_003076, 0x3075_00309a_003077,
  0x3078_003099_003079, 0x3078_00309a_00307a, 0x307b_003099_00307c, 0x307b_00309a_00307d,
  0x309d_003099_00309e, 0x30a6_003099_0030f4, 0x30ab_003099_0030ac, 0x30ad_003099_0030ae,
  0x30af_003099_0030b0, 0x30b1_003099_0030b2, 0x30b3_003099_0030b4, 0x30b5_003099_0030b6,
  0x30b7_003099_0030b8, 0x30b9_003099_0030ba, 0x30bb_003099_0030bc, 0x30bd_003099_0030be,
  0x30bf_003099_0030c0, 0x30c1_003099_0030c2, 0x30c4_003099_0030c5, 0x30c6_003099_0030c7,
  0x30c8_003099_0030c9, 0x30cf_003099_0030d0, 0x30cf_00309a_0030d1, 0x30d2_003099_0030d3,
  0x30d2_00309a_0030d4, 0x30d5_003099_0030d6, 0x30d5_00309a_0030d7, 0x30d8_003099_0030d9,
  0x30d8_00309a_0030da, 0x30db_003099_0030dc, 0x30db_00309a_0030dd, 0x30ef_003099_0030f7,
  0x30f0_003099_0030f8, 0x30f1_003099_0030f9, 0x30f2_003099_0030fa, 0x30fd_003099_0030fe,
  0x11099_0110ba_01109a, 0x1109b_0110ba_01109c, 0x110a5_0110ba_0110ab, 0x11131_011127_01112e,
  0x11132_011127_01112f, 0x11347_01133e_01134b, 0x11347_011357_01134c, 0x114b9_0114b0_0114bc,
  0x114b9_0114ba_0114bb, 0x114b9_0114bd_0114be, 0x115b8_0115af_0115ba, 0x115b9_0115af_0115bb,
  0x11935_011930_011938]

/-- Rows of a pair, as one number, and what it composes to. -/
def compositionTable : CodeTable := .ofPacked 1 compositions

end Pascaline.Canonical
