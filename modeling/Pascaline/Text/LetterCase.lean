import Pascaline.Text.CodeTable

/-!
# Upper and lower case

The one-to-one case maps of Unicode 15.0. A number `a_b_s_t` sends `a`, `a+s`, ..., `b` to the code
points that stand as far after `t`.
-/

namespace Pascaline

/-- Upper-case letters and their lower-case forms. -/
def lowerCases : List Nat := [
  0x41_00005a_000001_000061, 0xc0_0000d6_000001_0000e0, 0xd8_0000de_000001_0000f8,
  0x100_00012e_000002_000101, 0x130_000130_000001_000069, 0x132_000136_000002_000133,
  0x139_000147_000002_00013a, 0x14a_000176_000002_00014b, 0x178_000178_000001_0000ff,
  0x179_00017d_000002_00017a, 0x181_000181_000001_000253, 0x182_000184_000002_000183,
  0x186_000186_000001_000254, 0x187_000187_000001_000188, 0x189_00018a_000001_000256,
  0x18b_00018b_000001_00018c, 0x18e_00018e_000001_0001dd, 0x18f_00018f_000001_000259,
  0x190_000190_000001_00025b, 0x191_000191_000001_000192, 0x193_000193_000001_000260,
  0x194_000194_000001_000263, 0x196_000196_000001_000269, 0x197_000197_000001_000268,
  0x198_000198_000001_000199, 0x19c_00019c_000001_00026f, 0x19d_00019d_000001_000272,
  0x19f_00019f_000001_000275, 0x1a0_0001a4_000002_0001a1, 0x1a6_0001a6_000001_000280,
  0x1a7_0001a7_000001_0001a8, 0x1a9_0001a9_000001_000283, 0x1ac_0001ac_000001_0001ad,
  0x1ae_0001ae_000001_000288, 0x1af_0001af_000001_0001b0, 0x1b1_0001b2_000001_00028a,
  0x1b3_0001b5_000002_0001b4, 0x1b7_0001b7_000001_000292, 0x1b8_0001b8_000001_0001b9,
  0x1bc_0001bc_000001_0001bd, 0x1c4_0001c4_000001_0001c6, 0x1c5_0001c5_000001_0001c6,
  0x1c7_0001c7_000001_0001c9, 0x1c8_0001c8_000001_0001c9, 0x1ca_0001ca_000001_0001cc,
  0x1cb_0001db_000002_0001cc, 0x1de_0001ee_000002_0001df, 0x1f1_0001f1_000001_0001f3,
  0x1f2_0001f4_000002_0001f3, 0x1f6_0001f6_000001_000195, 0x1f7_0001f7_000001_0001bf,
  0x1f8_00021e_000002_0001f9, 0x220_000220_000001_00019e, 0x222_000232_000002_000223,
  0x23a_00023a_000001_002c65, 0x23b_00023b_000001_00023c, 0x23d_00023d_000001_00019a,
  0x23e_00023e_000001_002c66, 0x241_000241_000001_000242, 0x243_000243_000001_000180,
  0x244_000244_000001_000289, 0x245_000245_000001_00028c, 0x246_00024e_000002_000247,
  0x370_000372_000002_000371, 0x376_000376_000001_000377, 0x37f_00037f_000001_0003f3,
  0x386_000386_000001_0003ac, 0x388_00038a_000001_0003ad, 0x38c_00038c_000001_0003cc,
  0x38e_00038f_000001_0003cd, 0x391_0003a1_000001_0003b1, 0x3a3_0003ab_000001_0003c3,
  0x3cf_0003cf_000001_0003d7, 0x3d8_0003ee_000002_0003d9, 0x3f4_0003f4_000001_0003b8,
  0x3f7_0003f7_000001_0003f8, 0x3f9_0003f9_000001_0003f2, 0x3fa_0003fa_000001_0003fb,
  0x3fd_0003ff_000001_00037b, 0x400_00040f_000001_000450, 0x410_00042f_000001_000430,
  0x460_000480_000002_000461, 0x48a_0004be_000002_00048b, 0x4c0_0004c0_000001_0004cf,
  0x4c1_0004cd_000002_0004c2, 0x4d0_00052e_000002_0004d1, 0x531_000556_000001_000561,
  0x10a0_0010c5_000001_002d00, 0x10c7_0010c7_000001_002d27, 0x10cd_0010cd_000001_002d2d,
  0x13a0_0013ef_000001_00ab70, 0x13f0_0013f5_000001_0013f8, 0x1c90_001cba_000001_0010d0,
  0x1cbd_001cbf_000001_0010fd, 0x1e00_001e94_000002_001e01, 0x1e9e_001e9e_000001_0000df,
  0x1ea0_001efe_000002_001ea1, 0x1f08_001f0f_000001_001f00, 0x1f18_001f1d_000001_001f10,
  0x1f28_001f2f_000001_001f20, 0x1f38_001f3f_000001_001f30, 0x1f48_001f4d_000001_001f40,
  0x1f59_001f5f_000002_001f51, 0x1f68_001f6f_000001_001f60, 0x1f88_001f8f_000001_001f80,
  0x1f98_001f9f_000001_001f90, 0x1fa8_001faf_000001_001fa0, 0x1fb8_001fb9_000001_001fb0,
  0x1fba_001fbb_000001_001f70, 0x1fbc_001fbc_000001_001fb3, 0x1fc8_001fcb_000001_001f72,
  0x1fcc_001fcc_000001_001fc3, 0x1fd8_001fd9_000001_001fd0, 0x1fda_001fdb_000001_001f76,
  0x1fe8_001fe9_000001_001fe0, 0x1fea_001feb_000001_001f7a, 0x1fec_001fec_000001_001fe5,
  0x1ff8_001ff9_000001_001f78, 0x1ffa_001ffb_000001_001f7c, 0x1ffc_001ffc_000001_001ff3,
  0x2126_002126_000001_0003c9, 0x212a_00212a_000001_00006b, 0x212b_00212b_000001_0000e5,
  0x2132_002132_000001_00214e, 0x2160_00216f_000001_002170, 0x2183_002183_000001_002184,
  0x24b6_0024cf_000001_0024d0, 0x2c00_002c2f_000001_002c30, 0x2c60_002c60_000001_002c61,
  0x2c62_002c62_000001_00026b, 0x2c63_002c63_000001_001d7d, 0x2c64_002c64_000001_00027d,
  0x2c67_002c6b_000002_002c68, 0x2c6d_002c6d_000001_000251, 0x2c6e_002c6e_000001_000271,
  0x2c6f_002c6f_000001_000250, 0x2c70_002c70_000001_000252, 0x2c72_002c72_000001_002c73,
  0x2c75_002c75_000001_002c76, 0x2c7e_002c7f_000001_00023f, 0x2c80_002ce2_000002_002c81,
  0x2ceb_002ced_000002_002cec, 0x2cf2_002cf2_000001_002cf3, 0xa640_00a66c_000002_00a641,
  0xa680_00a69a_000002_00a681, 0xa722_00a72e_000002_00a723, 0xa732_00a76e_000002_00a733,
  0xa779_00a77b_000002_00a77a, 0xa77d_00a77d_000001_001d79, 0xa77e_00a786_000002_00a77f,
  0xa78b_00a78b_000001_00a78c, 0xa78d_00a78d_000001_000265, 0xa790_00a792_000002_00a791,
  0xa796_00a7a8_000002_00a797, 0xa7aa_00a7aa_000001_000266, 0xa7ab_00a7ab_000001_00025c,
  0xa7ac_00a7ac_000001_000261, 0xa7ad_00a7ad_000001_00026c, 0xa7ae_00a7ae_000001_00026a,
  0xa7b0_00a7b0_000001_00029e, 0xa7b1_00a7b1_000001_000287, 0xa7b2_00a7b2_000001_00029d,
  0xa7b3_00a7b3_000001_00ab53, 0xa7b4_00a7c2_000002_00a7b5, 0xa7c4_00a7c4_000001_00a794,
  0xa7c5_00a7c5_000001_000282, 0xa7c6_00a7c6_000001_001d8e, 0xa7c7_00a7c9_000002_00a7c8,
  0xa7d0_00a7d0_000001_00a7d1, 0xa7d6_00a7d8_000002_00a7d7, 0xa7f5_00a7f5_000001_00a7f6,
  0xff21_00ff3a_000001_00ff41, 0x10400_010427_000001_010428, 0x104b0_0104d3_000001_0104d8,
  0x10570_01057a_000001_010597, 0x1057c_01058a_000001_0105a3, 0x1058c_010592_000001_0105b3,
  0x10594_010595_000001_0105bb, 0x10c80_010cb2_000001_010cc0, 0x118a0_0118bf_000001_0118c0,
  0x16e40_016e5f_000001_016e60, 0x1e900_01e921_000001_01e922]

def lowerTable : CodeTable := .ofPacked 3 lowerCases


/-- Lower-case letters and their upper-case forms. -/
def upperCases : List Nat := [
  0x61_00007a_000001_000041, 0xb5_0000b5_000001_00039c, 0xe0_0000f6_000001_0000c0,
  0xf8_0000fe_000001_0000d8, 0xff_0000ff_000001_000178, 0x101_00012f_000002_000100,
  0x131_000131_000001_000049, 0x133_000137_000002_000132, 0x13a_000148_000002_000139,
  0x14b_000177_000002_00014a, 0x17a_00017e_000002_000179, 0x17f_00017f_000001_000053,
  0x180_000180_000001_000243, 0x183_000185_000002_000182, 0x188_000188_000001_000187,
  0x18c_00018c_000001_00018b, 0x192_000192_000001_000191, 0x195_000195_000001_0001f6,
  0x199_000199_000001_000198, 0x19a_00019a_000001_00023d, 0x19e_00019e_000001_000220,
  0x1a1_0001a5_000002_0001a0, 0x1a8_0001a8_000001_0001a7, 0x1ad_0001ad_000001_0001ac,
  0x1b0_0001b0_000001_0001af, 0x1b4_0001b6_000002_0001b3, 0x1b9_0001b9_000001_0001b8,
  0x1bd_0001bd_000001_0001bc, 0x1bf_0001bf_000001_0001f7, 0x1c5_0001c5_000001_0001c4,
  0x1c6_0001c6_000001_0001c4, 0x1c8_0001c8_000001_0001c7, 0x1c9_0001c9_000001_0001c7,
  0x1cb_0001cb_000001_0001ca, 0x1cc_0001cc_000001_0001ca, 0x1ce_0001dc_000002_0001cd,
  0x1dd_0001dd_000001_00018e, 0x1df_0001ef_000002_0001de, 0x1f2_0001f2_000001_0001f1,
  0x1f3_0001f3_000001_0001f1, 0x1f5_0001f5_000001_0001f4, 0x1f9_00021f_000002_0001f8,
  0x223_000233_000002_000222, 0x23c_00023c_000001_00023b, 0x23f_000240_000001_002c7e,
  0x242_000242_000001_000241, 0x247_00024f_000002_000246, 0x250_000250_000001_002c6f,
  0x251_000251_000001_002c6d, 0x252_000252_000001_002c70, 0x253_000253_000001_000181,
  0x254_000254_000001_000186, 0x256_000257_000001_000189, 0x259_000259_000001_00018f,
  0x25b_00025b_000001_000190, 0x25c_00025c_000001_00a7ab, 0x260_000260_000001_000193,
  0x261_000261_000001_00a7ac, 0x263_000263_000001_000194, 0x265_000265_000001_00a78d,
  0x266_000266_000001_00a7aa, 0x268_000268_000001_000197, 0x269_000269_000001_000196,
  0x26a_00026a_000001_00a7ae, 0x26b_00026b_000001_002c62, 0x26c_00026c_000001_00a7ad,
  0x26f_00026f_000001_00019c, 0x271_000271_000001_002c6e, 0x272_000272_000001_00019d,
  0x275_000275_000001_00019f, 0x27d_00027d_000001_002c64, 0x280_000280_000001_0001a6,
  0x282_000282_000001_00a7c5, 0x283_000283_000001_0001a9, 0x287_000287_000001_00a7b1,
  0x288_000288_000001_0001ae, 0x289_000289_000001_000244, 0x28a_00028b_000001_0001b1,
  0x28c_00028c_000001_000245, 0x292_000292_000001_0001b7, 0x29d_00029d_000001_00a7b2,
  0x29e_00029e_000001_00a7b0, 0x345_000345_000001_000399, 0x371_000373_000002_000370,
  0x377_000377_000001_000376, 0x37b_00037d_000001_0003fd, 0x3ac_0003ac_000001_000386,
  0x3ad_0003af_000001_000388, 0x3b1_0003c1_000001_000391, 0x3c2_0003c2_000001_0003a3,
  0x3c3_0003cb_000001_0003a3, 0x3cc_0003cc_000001_00038c, 0x3cd_0003ce_000001_00038e,
  0x3d0_0003d0_000001_000392, 0x3d1_0003d1_000001_000398, 0x3d5_0003d5_000001_0003a6,
  0x3d6_0003d6_000001_0003a0, 0x3d7_0003d7_000001_0003cf, 0x3d9_0003ef_000002_0003d8,
  0x3f0_0003f0_000001_00039a, 0x3f1_0003f1_000001_0003a1, 0x3f2_0003f2_000001_0003f9,
  0x3f3_0003f3_000001_00037f, 0x3f5_0003f5_000001_000395, 0x3f8_0003f8_000001_0003f7,
  0x3fb_0003fb_000001_0003fa, 0x430_00044f_000001_000410, 0x450_00045f_000001_000400,
  0x461_000481_000002_000460, 0x48b_0004bf_000002_00048a, 0x4c2_0004ce_000002_0004c1,
  0x4cf_0004cf_000001_0004c0, 0x4d1_00052f_000002_0004d0, 0x561_000586_000001_000531,
  0x10d0_0010fa_000001_001c90, 0x10fd_0010ff_000001_001cbd, 0x13f8_0013fd_000001_0013f0,
  0x1c80_001c80_000001_000412, 0x1c81_001c81_000001_000414, 0x1c82_001c82_000001_00041e,
  0x1c83_001c84_000001_000421, 0x1c85_001c85_000001_000422, 0x1c86_001c86_000001_00042a,
  0x1c87_001c87_000001_000462, 0x1c88_001c88_000001_00a64a, 0x1d79_001d79_000001_00a77d,
  0x1d7d_001d7d_000001_002c63, 0x1d8e_001d8e_000001_00a7c6, 0x1e01_001e95_000002_001e00,
  0x1e9b_001e9b_000001_001e60, 0x1ea1_001eff_000002_001ea0, 0x1f00_001f07_000001_001f08,
  0x1f10_001f15_000001_001f18, 0x1f20_001f27_000001_001f28, 0x1f30_001f37_000001_001f38,
  0x1f40_001f45_000001_001f48, 0x1f51_001f57_000002_001f59, 0x1f60_001f67_000001_001f68,
  0x1f70_001f71_000001_001fba, 0x1f72_001f75_000001_001fc8, 0x1f76_001f77_000001_001fda,
  0x1f78_001f79_000001_001ff8, 0x1f7a_001f7b_000001_001fea, 0x1f7c_001f7d_000001_001ffa,
  0x1f80_001f87_000001_001f88, 0x1f90_001f97_000001_001f98, 0x1fa0_001fa7_000001_001fa8,
  0x1fb0_001fb1_000001_001fb8, 0x1fb3_001fb3_000001_001fbc, 0x1fbe_001fbe_000001_000399,
  0x1fc3_001fc3_000001_001fcc, 0x1fd0_001fd1_000001_001fd8, 0x1fe0_001fe1_000001_001fe8,
  0x1fe5_001fe5_000001_001fec, 0x1ff3_001ff3_000001_001ffc, 0x214e_00214e_000001_002132,
  0x2170_00217f_000001_002160, 0x2184_002184_000001_002183, 0x24d0_0024e9_000001_0024b6,
  0x2c30_002c5f_000001_002c00, 0x2c61_002c61_000001_002c60, 0x2c65_002c65_000001_00023a,
  0x2c66_002c66_000001_00023e, 0x2c68_002c6c_000002_002c67, 0x2c73_002c73_000001_002c72,
  0x2c76_002c76_000001_002c75, 0x2c81_002ce3_000002_002c80, 0x2cec_002cee_000002_002ceb,
  0x2cf3_002cf3_000001_002cf2, 0x2d00_002d25_000001_0010a0, 0x2d27_002d27_000001_0010c7,
  0x2d2d_002d2d_000001_0010cd, 0xa641_00a66d_000002_00a640, 0xa681_00a69b_000002_00a680,
  0xa723_00a72f_000002_00a722, 0xa733_00a76f_000002_00a732, 0xa77a_00a77c_000002_00a779,
  0xa77f_00a787_000002_00a77e, 0xa78c_00a78c_000001_00a78b, 0xa791_00a793_000002_00a790,
  0xa794_00a794_000001_00a7c4, 0xa797_00a7a9_000002_00a796, 0xa7b5_00a7c3_000002_00a7b4,
  0xa7c8_00a7ca_000002_00a7c7, 0xa7d1_00a7d1_000001_00a7d0, 0xa7d7_00a7d9_000002_00a7d6,
  0xa7f6_00a7f6_000001_00a7f5, 0xab53_00ab53_000001_00a7b3, 0xab70_00abbf_000001_0013a0,
  0xff41_00ff5a_000001_00ff21, 0x10428_01044f_000001_010400, 0x104d8_0104fb_000001_0104b0,
  0x10597_0105a1_000001_010570, 0x105a3_0105b1_000001_01057c, 0x105b3_0105b9_000001_01058c,
  0x105bb_0105bc_000001_010594, 0x10cc0_010cf2_000001_010c80, 0x118c0_0118df_000001_0118a0,
  0x16e60_016e7f_000001_016e40, 0x1e922_01e943_000001_01e900]

def upperTable : CodeTable := .ofPacked 3 upperCases


/-- Sends a code point through a table of case rows. -/
def CodeTable.mapCase (t : CodeTable) (c : Char) : Char :=
  match t.row c.toNat with
  | [lo, hi, step, target] =>
    if c.toNat ≤ hi && (c.toNat - lo) % step == 0 then Char.ofNat (target + (c.toNat - lo)) else c
  | _ => c

/-- The lower-case form of a character, itself when it has none. -/
def lowerChar (c : Char) : Char :=
  if c.toNat < 128 then c.toLower else lowerTable.mapCase c

/-- The upper-case form of a character, itself when it has none. -/
def upperChar (c : Char) : Char :=
  if c.toNat < 128 then c.toUpper else upperTable.mapCase c

/-- Every character in lower case. -/
def lowerText (s : String) : String := String.ofList (s.toList.map lowerChar)

end Pascaline
