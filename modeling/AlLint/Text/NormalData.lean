/-!
# Characters and what they are made of

The data behind normal forms (Unicode 14), for the characters that names can have. An entry is a code point in
base sixteen, or the first and the last of several, a colon, and the characters that it is made of. An entry for
the code point after the last one leaves it out. After a stroke, each character is what one of a row of code
points is made of. Ideographs that were kept apart for older encodings are left out.
-/

namespace AlLint.Text

/-- What a character is made of, if forms that only look different count as one. The characters of a range are each a
single character, one after the other. -/
def looseTable : String :=
  "AA:a B5:μ BA:o 132:IJ ij 13F:L· l· 149:ʼn 17F:s 1C4:DŽ Dž dž LJ Lj lj NJ Nj nj 1F1:DZ Dz dz
2B0|hɦjrɹɻʁwy 2E0|ɣlsxʕ 340-341:̀ 343:̓ ̈́ 374:ʹ 387:· 3D0:β θ Υ Ύ Ϋ φ π 3F0:κ 3F1-3F2:ρ 3F4:Θ ε
3F9:Σ 587:եւ 675:اٴ وٴ ۇٴ يٴ 958:क़ ख़ ग़ ज़ ड़ ढ़ फ़ य़ 9DC:ড় ঢ় 9DF:য় A33:ਲ਼ A36:ਸ਼ A59:ਖ਼ ਗ਼ ਜ਼
A5E:ਫ਼ B5C:ଡ଼ ଢ଼ E33:ํา EB3:ໍາ EDC:ຫນ ຫມ F43:གྷ F4D:ཌྷ F52:དྷ F57:བྷ F5C:ཛྷ F69:ཀྵ F73:ཱི F75:ཱུ ྲྀ
ྲཱྀ ླྀ ླཱྀ F81:ཱྀ F93:ྒྷ F9D:ྜྷ FA2:ྡྷ FA7:ྦྷ FAC:ྫྷ FB9:ྐྵ 10FC:ნ 1D2C:A Æ B 1D30-1D31:D Ǝ
1D33-1D3A:G 1D3C|OȢPR 1D40-1D41:T W a 1D44-1D45:ɐ ᴂ b 1D48-1D49:d ə 1D4B-1D4C:ɛ g 1D4F|kmŋoɔ
1D54-1D55:ᴖ p 1D57-1D58:t 1D59|ᴝɯvᴥ 1D5D-1D5F:β 1D60-1D61:φ i r 1D64-1D65:u 1D66-1D67:β ρ
1D69-1D6A:φ 1D78:н 1D9B|ɒcɕðɜfɟɡɥ 1DA4-1DA6:ɨ 1DA7|ᵻʝɭᶅʟɱɰ 1DAE-1DB1:ɲ ɸ 1DB3-1DB4:ʂ ƫ 1DB6-1DB7:ʉ ᴜ
1DB9-1DBA:ʋ z 1DBC-1DBE:ʐ θ 1E9A:aʾ ṡ 1F71:ά 1F73:έ 1F75:ή 1F77:ί 1F79:ό 1F7B:ύ 1F7D:ώ
1FBB:Ά 1FBE:ι 1FC9:Έ 1FCB:Ή 1FD3:ΐ 1FDB:Ί 1FE3:ΰ 1FEB:Ύ 1FF9:Ό 1FFB:Ώ 2071:i 207F:n
2090|aeoxəh 2096-2099:k p 209B-209C:s 2102:C 2107:Ɛ 210A|gHHHhħIILl 2115:N 2119-211B:P R R 2124:Z
2126:Ω 2128:Z 212A:K Å 212C-212D:B 212F:e 2130-2131:E 2133:M o 2135-2138:א i 213C|πγΓΠ 2145:D
2146-2147:d 2148-2149:i 2160:I II III IV V VI VII VIII IX X XI XII L 216D-216E:C M i ii iii iv v vi
vii viii ix x xi xii l 217D-217E:c m 2C7C:j V 2D6F:ⵡ 3038:十 3039-303A:卄 309F:より 30FF:コト 3131-3132:ᄀ
ᆪ ᄂ 3135-3136:ᆬ 3137-3139:ᄃ 313A-313F:ᆰ ᄚ 3141-3143:ᄆ ᄡ 3145-314E:ᄉ 314F-3163:ᅡ ᅠ 3165-3166:ᄔ
3167-3168:ᇇ 3169|ᇌᇎᇓᇗᇙᄜᇝᇟ 3171-3172:ᄝ ᄠ 3174-3175:ᄢ ᄧ ᄩ 3178-317C:ᄫ 317D|ᄲᄶᅀᅇᅌ 3182-3183:ᇱ
3184-3186:ᅗ 3187-3188:ᆄ ᆈ 318A-318B:ᆑ ᆔ ᆞ ᆡ A69C:ъ ь A770:ꝯ A7F2:C F Q A7F8:Ħ œ AB5C|ꜧꬷɫꭒ AB69:ʍ
FB00:ff fi fl ffi ffl st st FB13:մն մե մի վն մխ FB1D:יִ FB1F:ײַ ע א FB22-FB23:ד FB24-FB26:כ ר ת
FB2A:שׁ שׂ שּׁ שּׂ אַ אָ אּ בּ גּ דּ הּ וּ זּ FB38:טּ יּ ךּ כּ לּ FB3E:מּ FB40:נּ סּ FB43:ףּ פּ
FB46:צּ קּ רּ שּ תּ וֹ בֿ כֿ פֿ אל FB50|ٱٱٻٻٻٻپپپپڀڀڀڀٺٺٺٺٿٿٿٿٹٹٹٹڤڤڤڤڦڦڦڦڄڄڄڄڃڃ FB78|ڃڃچچچ
FB7D-FB7E:چ FB7F|ڇڇڇڍڍڌڌڎڎڈڈژژڑڑککککگگگگڳڳڳڳڱڱڱڱں FB9F-FBA0:ں ڻ ڻ ڻ ۀ ۀ FBA6|ہہہہھھھھےے ۓ ۓ
FBD3|ڭڭڭڭۇۇۆۆۈۈ ۇٴ FBDE|ۋۋۅۅۉۉېېېېىى ئا ئا ئە ئە ئو ئو ئۇ ئۇ ئۆ ئۆ ئۈ ئۈ ئې ئې ئې ئى
ئى ئى FBFC|یییی ئج ئح ئم ئى ئي بج بح بخ بم بى بي تج تح تخ تم تى تي ثج ثم ثى ثي جح جم حج حم خج
خح خم سج سح سخ سم صح صم ضج ضح ضخ ضم طح طم ظم عج عم غج غم فج فح فخ فم فى في قح قم قى قي كا كج كح كخ
كل كم كى كي لج لح لخ لم لى لي مج مح مخ مم مى مي نج نح نخ نم نى ني هج هم هى هي يج يح يخ يم يى يي ذٰ
رٰ ىٰ FC64:ئر ئز ئم ئن ئى ئي بر بز بم بن بى بي تر تز تم تن تى تي ثر ثز ثم ثن ثى ثي فى في قى قي
كا كل كم كى كي لم لى لي ما مم نر نز نم نن نى ني ىٰ ير يز يم ين يى يي ئج ئح ئخ ئم ئه بج بح بخ بم
به تج تح تخ تم ته ثم جح جم حج حم خج خم سج سح سخ سم صح صخ صم ضج ضح ضخ ضم طح ظم عج عم غج غم فج فح فخ
فم قح قم كج كح كخ كل كم لج لح لخ لم له مج مح مخ مم نج نح نخ نم نه هج هم هٰ يج يح يخ يم يه ئم ئه بم
به تم ته ثم ثه سم سه شم شه كل كم لم نم نه يم يه ـَّ ـُّ ـِّ طى طي عى عي غى غي سى سي شى شي حى حي جى
جي خى خي صى صي ضى ضي شج شح شخ شم شر سر صر ضر طى طي عى عي غى غي سى سي شى شي حى حي جى جي خى خي صى صي
ضى ضي شج شح شخ شم شر سر صر ضر شج شح شخ شم سه شه طم سج سح سخ شج شح شخ طم ظم اً اً FD50:تجم تحج تحج
تحم تخم تمج تمح تمخ جمح جمح حمي حمى سحج سجح سجى سمح سمح سمج سمم سمم صحح صحح صمم شحم شحم شجي شمخ شمخ
شمم شمم ضحى ضخم ضخم طمح طمح طمم طمي عجم عمم عمم عمى غمم غمي غمى فخم فخم قمح قمم لحم لحي لحى لجج لجج
لخم لخم لمح لمح محج محم محي مجح مجم مخج مخم FD92:مجخ همج همم نحم نحى نجم نجم نجى نمي نمى يمم يمم بخي
تجي تجى تخي تخى تمي تمى جمي جحى جمى سخى صحي شحي ضحي لجي لمي يحي يجي يمي ممي قمي نحي قمح لحم عمي كمي
نجح مخي لجم كمم لجم نجح جحي حجي مجي فمي بحي كمم عجم صمم سخي نجي FDF0:صلے قلے الله اكبر محمد صلعم
رسول عليه وسلم صلى FE33:_ _ FE4D:_ _ _ FE71:ـً FE77:ـَ FE79:ـُ FE7B:ـِ FE7D:ـّ FE7F:ـْ ء آ آ أ أ
ؤ ؤ إ إ ئ ئ ئ ئ ا FE8E-FE8F:ا ب ب FE92-FE93:ب FE94-FE95:ة ت ت FE98-FE99:ت ث ث FE9C-FE9D:ث ج
ج FEA0-FEA1:ج ح ح FEA4-FEA5:ح خ خ FEA8-FEA9:خ FEAA-FEAB:د FEAC-FEAD:ذ FEAE-FEAF:ر FEB0-FEB1:ز س س
FEB4-FEB5:س ش ش FEB8-FEB9:ش ص ص FEBC-FEBD:ص ض ض FEC0-FEC1:ض ط ط FEC4-FEC5:ط ظ ظ FEC8-FEC9:ظ ع ع
FECC-FECD:ع FECE|غغغففف FED4-FED5:ف ق ق FED8-FED9:ق ك ك FEDC-FEDD:ك ل ل FEE0-FEE1:ل م م FEE4-FEE5:م
ن ن FEE8-FEE9:ن ه ه FEEC-FEED:ه FEEE-FEEF:و FEF0-FEF1:ى ي ي ي لآ لآ لأ لأ لإ لإ لا لا
FF10-FF19:0 FF21-FF3A:A FF3F:_ FF41-FF5A:a FF66|ヲァィゥェォャュョッーアイウエ FF75-FF76:オ FF77|キクケコサシスセソタチツテト
FF85-FF8A:ナ FF8B|ヒフヘホ FF8F-FF93:マ ヤ ユ FF96-FF9B:ヨ ワ ン FF9E-FF9F:゙ ᅠ FFA1-FFA2:ᄀ ᆪ ᄂ FFA5-FFA6:ᆬ
FFA7-FFA9:ᄃ FFAA-FFAF:ᆰ ᄚ FFB1-FFB3:ᄆ ᄡ FFB5-FFBE:ᄉ FFC2-FFC7:ᅡ FFCA-FFCF:ᅧ FFD2-FFD7:ᅭ FFDA-FFDC:ᅳ
10781-10782:ː æ ʙ ɓ 10787|ʣꭦʥʤ 1078B-1078C:ɖ 1078D|ᶑɘɞʩɤɢɠʛħʜɧʄ 10799-1079A:ʪ 1079B|ɬ𝼄ꞎɮ𝼅ʎ𝼆ø
107A3-107A4:ɶ q ɺ 𝼈 107A8-107A9:ɽ 107AA|ʀʨʦꭧʧʈⱱ 107B2:ʏ 107B3-107B4:ʡ ʘ 107B6-107B8:ǀ 𝼊 𝼞
1D400-1D419:A 1D41A-1D433:a 1D434-1D44D:A 1D44E-1D454:a 1D456-1D467:i 1D468-1D481:A 1D482-1D49B:a A
1D49E-1D49F:C 1D4A2:G 1D4A5-1D4A6:J 1D4A9-1D4AC:N 1D4AE-1D4B5:S 1D4B6-1D4B9:a 1D4BB:f 1D4BD-1D4C3:h
1D4C5-1D4CF:p 1D4D0-1D4E9:A 1D4EA-1D503:a 1D504-1D505:A 1D507-1D50A:D 1D50D-1D514:J 1D516-1D51C:S
1D51E-1D537:a 1D538-1D539:A 1D53B-1D53E:D 1D540-1D544:I 1D546:O 1D54A-1D550:S 1D552-1D56B:a
1D56C-1D585:A 1D586-1D59F:a 1D5A0-1D5B9:A 1D5BA-1D5D3:a 1D5D4-1D5ED:A 1D5EE-1D607:a 1D608-1D621:A
1D622-1D63B:a 1D63C-1D655:A 1D656-1D66F:a 1D670-1D689:A 1D68A-1D6A3:a ı ȷ 1D6A8-1D6B8:Α Θ
1D6BA-1D6C0:Σ 1D6C2-1D6DA:α 1D6DC|εθκφρπ 1D6E2-1D6F2:Α Θ 1D6F4-1D6FA:Σ 1D6FC-1D714:α 1D716|εθκφρπ
1D71C-1D72C:Α Θ 1D72E-1D734:Σ 1D736-1D74E:α 1D750|εθκφρπ 1D756-1D766:Α Θ 1D768-1D76E:Σ 1D770-1D788:α
1D78A|εθκφρπ 1D790-1D7A0:Α Θ 1D7A2-1D7A8:Σ 1D7AA-1D7C2:α 1D7C4|εθκφρπ 1D7CA-1D7CB:Ϝ 1D7CE-1D7D7:0
1D7D8-1D7E1:0 1D7E2-1D7EB:0 1D7EC-1D7F5:0 1D7F6-1D7FF:0 1EE00-1EE01:ا ج د 1EE05|وزحطي 1EE0A-1EE0D:ك
1EE0E|سعفصقرش 1EE15-1EE16:ت 1EE17|خذضظغٮںڡٯ 1EE21:ب ج 1EE24:ه 1EE27:ح 1EE29:ي 1EE2A-1EE2D:ك
1EE2E|سعفصق 1EE34:ش 1EE35-1EE36:ت خ 1EE39:ض 1EE3B:غ 1EE42:ج 1EE47:ح 1EE49:ي 1EE4B:ل 1EE4D:ن س ع
1EE51:ص ق 1EE54:ش 1EE57:خ 1EE59:ض 1EE5B:غ 1EE5D:ں 1EE5F:ٯ 1EE61:ب ج 1EE64:ه 1EE67|حطيك 1EE6C-1EE6D:م
1EE6E|سعفصق 1EE74:ش 1EE75-1EE76:ت خ 1EE79|ضظغٮ 1EE7E:ڡ 1EE80-1EE81:ا ج د 1EE84-1EE85:ه 1EE86|زحطي
1EE8B-1EE8D:ل 1EE8E|سعفصقرش 1EE95-1EE96:ت 1EE97|خذضظغ 1EEA1:ب ج د 1EEA5|وزحطي 1EEAB-1EEAD:ل
1EEAE|سعفصقرش 1EEB5-1EEB6:ت 1EEB7|خذضظغ 1FBF0-1FBF9:0"

/-- The characters that are written as a letter and a mark. A letter with its own mark stands before those that
it is in. -/
def pairTable : String :=
  "C0:À Á Â Ã Ä Å C7:Ç È É Ê Ë Ì Í Î Ï D1:Ñ Ò Ó Ô Õ Ö D9:Ù Ú Û Ü Ý E0:à á
â ã ä å E7:ç è é ê ë ì í î ï F1:ñ ò ó ô õ ö F9:ù ú û ü ý FF:ÿ Ā ā Ă ă Ą
ą Ć ć Ĉ ĉ Ċ ċ Č č Ď ď 112:Ē ē Ĕ ĕ Ė ė Ę ę Ě ě Ĝ ĝ Ğ ğ Ġ ġ Ģ ģ Ĥ ĥ 128:Ĩ
ĩ Ī ī Ĭ ĭ Į į İ 134:Ĵ ĵ Ķ ķ 139:Ĺ ĺ Ļ ļ Ľ ľ 143:Ń ń Ņ ņ Ň ň 14C:Ō ō Ŏ ŏ Ő
ő 154:Ŕ ŕ Ŗ ŗ Ř ř Ś ś Ŝ ŝ Ş ş Š š Ţ ţ Ť ť 168:Ũ ũ Ū ū Ŭ ŭ Ů ů Ű ű Ų ų Ŵ
ŵ Ŷ ŷ Ÿ Ź ź Ż ż Ž ž 1A0:Ơ ơ 1AF:Ư ư 1CD:Ǎ ǎ Ǐ ǐ Ǒ ǒ Ǔ ǔ Ǖ ǖ Ǘ ǘ Ǚ ǚ Ǜ ǜ
1DE:Ǟ ǟ 1E2:Ǣ ǣ 1E6:Ǧ ǧ Ǩ ǩ Ǫ ǫ Ǭ ǭ Ǯ ǯ ǰ 1F4:Ǵ ǵ 1F8:Ǹ ǹ Ǻ ǻ Ǽ ǽ Ǿ ǿ Ȁ ȁ Ȃ
ȃ Ȅ ȅ Ȇ ȇ Ȉ ȉ Ȋ ȋ Ȍ ȍ Ȏ ȏ Ȑ ȑ Ȓ ȓ Ȕ ȕ Ȗ ȗ Ș ș Ț ț 21E:Ȟ ȟ 226:Ȧ ȧ Ȩ ȩ Ȫ
ȫ Ȭ ȭ Ȯ ȯ Ȱ ȱ Ȳ ȳ 385:΅ Ά 388:Έ Ή Ί 38C:Ό 38E:Ύ Ώ 3AA:Ϊ Ϋ ά έ ή ί 3CA:ϊ ϋ ό
ύ ώ 3D3:ϓ ϔ 400:Ѐ Ё 403:Ѓ 407:Ї 40C:Ќ Ѝ Ў 419:Й 439:й 450:ѐ ё 453:ѓ 457:ї 45C:ќ ѝ ў
476:Ѷ ѷ 4C1:Ӂ ӂ 4D0:Ӑ ӑ Ӓ ӓ 4D6:Ӗ ӗ 4DA:Ӛ ӛ Ӝ ӝ Ӟ ӟ 4E2:Ӣ ӣ Ӥ ӥ Ӧ ӧ 4EA:Ӫ ӫ Ӭ
ӭ Ӯ ӯ Ӱ ӱ Ӳ ӳ Ӵ ӵ 4F8:Ӹ ӹ 622:آ أ ؤ إ ئ 6C0:ۀ 6C2:ۂ 6D3:ۓ 929:ऩ 931:ऱ 934:ऴ
9CB:ো ৌ B48:ୈ B4B:ୋ ୌ B94:ஔ BCA:ொ ோ ௌ C48:ై CC0:ೀ CC7:ೇ ೈ CCA:ೊ ೋ D4A:ൊ ോ ൌ DDA:ේ
DDC:ො ෝ ෞ 1026:ဦ 1B06:ᬆ 1B08:ᬈ 1B0A:ᬊ 1B0C:ᬌ 1B0E:ᬎ 1B12:ᬒ 1B3B:ᬻ 1B3D:ᬽ 1B40:ᭀ ᭁ 1B43:ᭃ
1E00:Ḁ ḁ Ḃ ḃ Ḅ ḅ Ḇ ḇ Ḉ ḉ Ḋ ḋ Ḍ ḍ Ḏ ḏ Ḑ ḑ Ḓ ḓ Ḕ ḕ Ḗ ḗ Ḙ ḙ Ḛ ḛ Ḝ ḝ Ḟ ḟ Ḡ
ḡ Ḣ ḣ Ḥ ḥ Ḧ ḧ Ḩ ḩ Ḫ ḫ Ḭ ḭ Ḯ ḯ Ḱ ḱ Ḳ ḳ Ḵ ḵ Ḷ ḷ Ḹ ḹ Ḻ ḻ Ḽ ḽ Ḿ ḿ Ṁ ṁ Ṃ
ṃ Ṅ ṅ Ṇ ṇ Ṉ ṉ Ṋ ṋ Ṍ ṍ Ṏ ṏ Ṑ ṑ Ṓ ṓ Ṕ ṕ Ṗ ṗ Ṙ ṙ Ṛ ṛ Ṝ ṝ Ṟ ṟ Ṡ ṡ Ṣ ṣ Ṥ
ṥ Ṧ ṧ Ṩ ṩ Ṫ ṫ Ṭ ṭ Ṯ ṯ Ṱ ṱ Ṳ ṳ Ṵ ṵ Ṷ ṷ Ṹ ṹ Ṻ ṻ Ṽ ṽ Ṿ ṿ Ẁ ẁ Ẃ ẃ Ẅ ẅ Ẇ
ẇ Ẉ ẉ Ẋ ẋ Ẍ ẍ Ẏ ẏ Ẑ ẑ Ẓ ẓ Ẕ ẕ ẖ ẗ ẘ ẙ 1E9B:ẛ 1EA0:Ạ ạ Ả ả Ấ ấ Ầ ầ Ẩ ẩ Ẫ
ẫ Ậ ậ Ắ ắ Ằ ằ Ẳ ẳ Ẵ ẵ Ặ ặ Ẹ ẹ Ẻ ẻ Ẽ ẽ Ế ế Ề ề Ể ể Ễ ễ Ệ ệ Ỉ ỉ Ị ị Ọ
ọ Ỏ ỏ Ố ố Ồ ồ Ổ ổ Ỗ ỗ Ộ ộ Ớ ớ Ờ ờ Ở ở Ỡ ỡ Ợ ợ Ụ ụ Ủ ủ Ứ ứ Ừ ừ Ử ử Ữ
ữ Ự ự Ỳ ỳ Ỵ ỵ Ỷ ỷ Ỹ ỹ 1F00:ἀ ἁ ἂ ἃ ἄ ἅ ἆ ἇ Ἀ Ἁ Ἂ Ἃ Ἄ Ἅ Ἆ Ἇ ἐ ἑ ἒ ἓ ἔ ἕ
1F18:Ἐ Ἑ Ἒ Ἓ Ἔ Ἕ 1F20:ἠ ἡ ἢ ἣ ἤ ἥ ἦ ἧ Ἠ Ἡ Ἢ Ἣ Ἤ Ἥ Ἦ Ἧ ἰ ἱ ἲ ἳ ἴ ἵ ἶ ἷ Ἰ
Ἱ Ἲ Ἳ Ἴ Ἵ Ἶ Ἷ ὀ ὁ ὂ ὃ ὄ ὅ 1F48:Ὀ Ὁ Ὂ Ὃ Ὄ Ὅ 1F50:ὐ ὑ ὒ ὓ ὔ ὕ ὖ ὗ 1F59:Ὑ
1F5B:Ὓ 1F5D:Ὕ 1F5F:Ὗ ὠ ὡ ὢ ὣ ὤ ὥ ὦ ὧ Ὠ Ὡ Ὢ Ὣ Ὤ Ὥ Ὦ Ὧ ὰ 1F72:ὲ 1F74:ὴ 1F76:ὶ
1F78:ὸ 1F7A:ὺ 1F7C:ὼ 1F80:ᾀ ᾁ ᾂ ᾃ ᾄ ᾅ ᾆ ᾇ ᾈ ᾉ ᾊ ᾋ ᾌ ᾍ ᾎ ᾏ ᾐ ᾑ ᾒ ᾓ ᾔ ᾕ ᾖ ᾗ ᾘ
ᾙ ᾚ ᾛ ᾜ ᾝ ᾞ ᾟ ᾠ ᾡ ᾢ ᾣ ᾤ ᾥ ᾦ ᾧ ᾨ ᾩ ᾪ ᾫ ᾬ ᾭ ᾮ ᾯ ᾰ ᾱ ᾲ ᾳ ᾴ 1FB6:ᾶ ᾷ Ᾰ Ᾱ Ὰ
1FBC:ᾼ 1FC1:῁ ῂ ῃ ῄ 1FC6:ῆ ῇ Ὲ 1FCA:Ὴ 1FCC:ῌ ῍ ῎ ῏ ῐ ῑ ῒ 1FD6:ῖ ῗ Ῐ Ῑ Ὶ 1FDD:῝ ῞
῟ ῠ ῡ ῢ 1FE4:ῤ ῥ ῦ ῧ Ῠ Ῡ Ὺ 1FEC:Ῥ ῭ 1FF2:ῲ ῳ ῴ 1FF6:ῶ ῷ Ὸ 1FFA:Ὼ 1FFC:ῼ 219A:↚ ↛
21AE:↮ 21CD:⇍ ⇎ ⇏ 2204:∄ 2209:∉ 220C:∌ 2224:∤ 2226:∦ 2241:≁ 2244:≄ 2247:≇ 2249:≉ 2260:≠
2262:≢ 226D:≭ ≮ ≯ ≰ ≱ 2274:≴ ≵ 2278:≸ ≹ 2280:⊀ ⊁ 2284:⊄ ⊅ 2288:⊈ ⊉ 22AC:⊬ ⊭ ⊮ ⊯
22E0:⋠ ⋡ ⋢ ⋣ 22EA:⋪ ⋫ ⋬ ⋭ 304C:が 304E:ぎ 3050:ぐ 3052:げ 3054:ご 3056:ざ 3058:じ 305A:ず
305C:ぜ 305E:ぞ 3060:だ 3062:ぢ 3065:づ 3067:で 3069:ど 3070:ば ぱ 3073:び ぴ 3076:ぶ ぷ 3079:べ ぺ
307C:ぼ ぽ 3094:ゔ 309E:ゞ 30AC:ガ 30AE:ギ 30B0:グ 30B2:ゲ 30B4:ゴ 30B6:ザ 30B8:ジ 30BA:ズ 30BC:ゼ
30BE:ゾ 30C0:ダ 30C2:ヂ 30C5:ヅ 30C7:デ 30C9:ド 30D0:バ パ 30D3:ビ ピ 30D6:ブ プ 30D9:ベ ペ 30DC:ボ ポ
30F4:ヴ 30F7:ヷ ヸ ヹ ヺ 30FE:ヾ 1109A:𑂚 1109C:𑂜 110AB:𑂫 1112E:𑄮 𑄯 1134B:𑍋 𑍌 114BB:𑒻 𑒼
114BE:𑒾 115BA:𑖺 𑖻 11938:𑤸 1E0:Ǡ ǡ 390:ΐ 3B0:ΰ"

/-- The classes of marks by which they are put in order. -/
def classTable : String :=
  "300-314:E6 E8 316-319:DC E8 D8 31C-320:DC 321-322:CA 323-326:DC 327-328:CA 329-333:DC 334-338:1 339-33C:DC
33D-344:E6 F0 E6 347-349:DC 34A-34C:E6 34D-34E:DC 350-352:E6 353-356:DC E6 E8 359-35A:DC E6 E9 35D-35E:EA E9
360-361:EA E9 363-36F:E6 483-487:E6 591:DC 592-595:E6 DC 597-599:E6 DE DC 59C-5A1:E6 5A2-5A7:DC 5A8-5A9:E6 DC
5AB-5AC:E6 DE E4 E6 A B C D E F 10 11 12 5B9-5BA:13 14 15 16 5BF:17 5C1:18 19 5C4:E6 DC 5C7:12 610-617:E6 1E 1F
20 64B:1B 1C 1D 1E 1F 20 21 22 653-654:E6 655-656:DC 657-65B:E6 DC 65D-65E:E6 DC 670:23 6D6-6DC:E6 6DF-6E2:E6 DC
E6 6E7-6E8:E6 6EA:DC 6EB-6EC:E6 DC 711:24 730:E6 DC 732-733:E6 DC 735-736:E6 737-739:DC E6 73B-73C:DC E6 DC
73F-741:E6 DC E6 DC E6 DC E6 DC 749-74A:E6 7EB-7F1:E6 DC E6 7FD:DC 816-819:E6 81B-823:E6 825-827:E6 829-82D:E6
859-85B:DC 898:E6 899-89B:DC 89C-89F:E6 8CA-8CE:E6 8CF-8D3:DC 8D4-8E1:E6 8E3:DC 8E4-8E5:E6 DC 8E7-8E8:E6 DC
8EA-8EC:E6 8ED-8EF:DC 1B 1C 1D 8F3-8F5:E6 DC 8F7-8F8:E6 8F9-8FA:DC 8FB-8FF:E6 93C:7 94D:9 951:E6 DC 953-954:E6
9BC:7 9CD:9 9FE:E6 A3C:7 A4D:9 ABC:7 ACD:9 B3C:7 B4D:9 BCD:9 C3C:7 C4D:9 C55:54 5B CBC:7 CCD:9 D3B-D3C:9 D4D:9
DCA:9 E38-E39:67 9 E48-E4B:6B EB8-EB9:76 9 EC8-ECB:7A F18-F19:DC F35:DC F37:DC F39:D8 F71:81 82 F74:84
F7A-F7D:82 F80:82 F82-F83:E6 9 F86-F87:E6 FC6:DC 1037:7 1039-103A:9 108D:DC 135D-135F:E6 1714-1715:9 1734:9
17D2:9 17DD:E6 18A9:E4 1939:DE E6 DC 1A17:E6 DC 1A60:9 1A75-1A7C:E6 1A7F:DC 1AB0-1AB4:E6 1AB5-1ABA:DC
1ABB-1ABC:E6 DC 1ABF-1AC0:DC 1AC1-1AC2:E6 1AC3-1AC4:DC 1AC5-1AC9:E6 DC 1ACB-1ACE:E6 1B34:7 1B44:9 1B6B:E6 DC
1B6D-1B73:E6 1BAA-1BAB:9 1BE6:7 1BF2-1BF3:9 1C37:7 1CD0-1CD2:E6 1CD4:1 1CD5-1CD9:DC 1CDA-1CDB:E6 1CDC-1CDF:DC E6
1CE2-1CE8:1 1CED:DC 1CF4:E6 1CF8-1CF9:E6 1DC0-1DC1:E6 DC 1DC3-1DC9:E6 DC 1DCB-1DCC:E6 EA D6 DC CA 1DD1-1DF5:E6
E8 1DF7-1DF8:E4 DC DA E6 E9 DC E6 DC 20D0-20D1:E6 20D2-20D3:1 20D4-20D7:E6 20D8-20DA:1 20DB-20DC:E6 20E1:E6
20E5-20E6:1 E6 DC E6 20EA-20EB:1 20EC-20EF:DC E6 2CEF-2CF1:E6 2D7F:9 2DE0-2DFF:E6 302A:DA E4 E8 DE 302E-302F:E0
3099-309A:8 A66F:E6 A674-A67D:E6 A69E-A69F:E6 A6F0-A6F1:E6 A806:9 A82C:9 A8C4:9 A8E0-A8F1:E6 A92B-A92D:DC A953:9
A9B3:7 A9C0:9 AAB0:E6 AAB2-AAB3:E6 DC AAB7-AAB8:E6 AABE-AABF:E6 AAC1:E6 AAF6:9 ABED:9 FB1E:1A FE20-FE26:E6
FE27-FE2D:DC FE2E-FE2F:E6 101FD:DC 102E0:DC 10376-1037A:E6 10A0D:DC 10A0F:E6 10A38:E6 1 DC 10A3F:9 10AE5:E6 DC
10D24-10D27:E6 10EAB-10EAC:E6 10F46-10F47:DC 10F48-10F4A:E6 DC E6 10F4D-10F50:DC 10F82:E6 DC E6 DC 11046:9
11070:9 1107F:9 110B9:9 7 11100-11102:E6 11133-11134:9 11173:7 111C0:9 111CA:7 11235:9 7 112E9:7 9 1133B-1133C:7
1134D:9 11366-1136C:E6 11370-11374:E6 11442:9 11446:7 1145E:E6 114C2:9 7 115BF:9 7 1163F:9 116B6:9 7 1172B:9
11839:9 7 1193D-1193E:9 11943:7 119E0:9 11A34:9 11A47:9 11A99:9 11C3F:9 11D42:7 11D44-11D45:9 11D97:9
16AF0-16AF4:1 16B30-16B36:E6 16FF0-16FF1:6 1BC9E:1 1D165-1D166:D8 1D167-1D169:1 1D16D:E2 1D16E-1D172:D8
1D17B-1D182:DC 1D185-1D189:E6 1D18A-1D18B:DC 1D1AA-1D1AD:E6 1D242-1D244:E6 1E000-1E006:E6 1E008-1E018:E6
1E01B-1E021:E6 1E023-1E024:E6 1E026-1E02A:E6 1E130-1E136:E6 1E2AE:E6 1E2EC-1E2EF:E6 1E8D0-1E8D6:DC
1E944-1E949:E6 7"

end AlLint.Text
