import PairGrep.Pattern.Unicode.Table

/-!
# Text segments

The properties that cut text into graphemes, words and sentences.
-/

namespace PairGrep.Pattern.Unicode

def graphemeNames : List (String × Nat) :=
  [("other", 0),
   ("xx", 0),
   ("cr", 1),
   ("cn", 2),
   ("control", 2),
   ("extpictxx", 3),
   ("ex", 4),
   ("extend", 4),
   ("l", 5),
   ("lf", 6),
   ("lv", 7),
   ("lvt", 8),
   ("pp", 9),
   ("prepend", 9),
   ("regionalindicator", 10),
   ("ri", 10),
   ("sm", 11),
   ("spacingmark", 11),
   ("t", 12),
   ("v", 13),
   ("zwj", 14)]

def graphemeRuns : List String :=
  ["iqmhiihhiygfiiBhgpjhgjihjhgRykQjgTokngHokNhghkhghkighkighkhgYhpmgqkrghihgOhk1gwkhgFjknphghkm",
   "gikighkkgBhphghkhg-k7gbikrgahkpgpkhg4kkghkpghkjghklgLhkjgUhpiglkpgKhk4phkAhrhgWhkhrhkhghrjko",
   "rkkhrighkngqkig9khrigYhkhghkhrikkgirigirikhgpkhgqkig6khgikirhgYhkhghrjkigkkigikjgjkhg-kigjkh",
   "grkirhgYhkhghrjklghkirhghrikhg0kig2kmghkhrigYhkhghkirhkkgirigirikhgnkjgqkig-khgbhkhrhkhrigjr",
   "jghrjkhgpkhgIhkhrjkhgXhkhghkjrkghkjghkkgnkigrkig9khrigYhkhghrhkhrikhrighkhrighrikignkigrkigv",
   "rhgskirigXhkighkhrikkghrjghrjkhphgokhgqkig9khrigGikhgkkhrikjghkhghrnkhgyrigdhkhghrhkngskogCj",
   "khghrhkpgrkngJikig7khghkhghkhgkrigRhkurhklghkiglkrghkEhgpkhgGjkkrhkmghkirikig3rikigkkjgwkkgt",
   "khghrhkigmkhgvkhgCjlAjtIisYigdqkjgS9kjrhg8kirhg9kig-kigAikirhknrokhrikrgpkhgNhkjihkhgVjkigCh",
   "khgWjkjrkkirjgkrikhrmkjgbmkirikhgZhrhkhrhknghkhghkhgikormkqgikhgQhk_gRhkkrhgPhknrhkhrlkhrigG",
   "hkpgskirhg-rhkkrikirhkjgYhkhrhkirjkhrhkjrigQhrokorikigYkkjghktrhkngkkhgmkhgirhkigGmkAigLwihk",
   "huhiig4ingtjhgsjhg2iwgAjkBhgRhjhg2jhgaijmgvjigPrjigsjhgfijhgGijhg5jrgkjjgHmjhgHnjigqjhgpjhga",
   "hjkghjmghjsghjSjgqjWjgijrghjhghjhgmjhgjjhgmjhgqjigvjhgijhgkjhghjhgkjjghjhgrjlgNhjjgpjhgujhgu",
   "jhgUrjigPujjgzjigThjhgkjhgZskjgNkkhgAjkAhgKxkmjhgsjhgbikigcvjhghjhgVe8kkghkqgAhkigQikigQokhg",
   "jkhgkkhg3rikirhgkkhgTirigShrwkig6kygtkhgGhkog5krrigsl9gjkjrhgPhkhrikkrikirjgEhkhgDikmrikirik",
   "igskhgokhrhgOhkhgThkhghkjgikiglkighkhgJhrhkiriglrhkhgMnrikhrikhrighrhkhgynho7nho7nho7nho7nho",
   "7nho7nho7nho7nho7nho7nho7nho7nho7nho7nho7nho7nho7nho7nho7nho7nho7nho7nho7nho7nho7nho7nho7nho",
   "7nho7nho7nho7nho7nho7nho7nho7nho7nho7nho7nho7nho7nho7nho7nho7nho7nho7nho7nho7nho7nho7nho7nho",
   "7nho7nho7nho7nho7nho7nho7nho7nho7nho7nho7nho7nho7nho7nho7nho7nho7nho7nho7nho7nho7nho7nho7nho",
   "7nho7nho7nho7nho7nho7nho7nho7nho7nho7nho7nho7nho7nho7nho7nho7nho7nho7nho7nho7nho7nho7nho7nho",
   "7nho7nho7nho7nho7nho7nho7nho7nho7nho7nho7nho7nho7nho7nho7nho7nho7nho7nho7nho7nho7nho7nho7nho",
   "7nho7nho7nho7nho7nho7nho7nho7nho7nho7nho7nho7nho7nho7nho7nho7nho7nho7nho7nho7nho7nho7nho7nho",
   "7nho7nho7nho7nho7nho7nho7nho7nho7nho7nho7nho7nho7nho7nho7nho7nho7nho7nho7nho7nho7nho7nho7nho",
   "7nho7nho7nho7nho7nho7nho7nho7nho7nho7nho7nho7nho7nho7nho7nho7nho7nho7nho7nho7nho7nho7nho7nho",
   "7nho7nho7nho7nho7nho7nho7nho7nho7nho7nho7nho7nho7nho7nho7nho7nho7nho7nho7nho7nho7nho7nho7nho",
   "7nho7nho7nho7nho7nho7nho7nho7nho7nho7nho7nho7nho7nho7nho7nho7nho7nho7nho7nho7nho7nho7nho7nho",
   "7nho7nho7nho7nho7nho7nho7nho7nho7nho7nho7nho7nho7nho7nho7nho7nho7nho7nho7nho7nho7nho7nho7nho",
   "7nho7nho7nho7nho7nho7nho7nho7nho7nho7nho7nho7nho7nho7nho7nho7nho7nho7nho7nho7nho7nho7nho7nho",
   "7nho7nho7nho7nho7nho7nho7nho7nho7nho7nho7nho7nho7nho7nho7nho7nho7nho7nho7nho7nho7nho7nho7nho",
   "7nho7nho7nho7nho7nho7nho7nho7nho7nho7nho7nho7nho7nho7nho7nho7nho7nho7nho7nho7nho7nho7nho7nho",
   "7nho7nho7nho7nho7nho7nho7nho7nho7nho7nho7nho7nho7nho7nho7nho7nho7nho7nho7nho7nho7nho7nho7nho",
   "7nho7nho7nho7nho7nho7nho7nho7nho7nho7nho7nho7nho7nho7nho7nho7nho7nho7nho7nho7nho7nho7nho7nho",
   "7nho7nho7nho7nho7nho7nho7nho7nho7nho7nho7nho7nho7nho7nho7nho7nho7nho7nho7nho7nho7nho7nho7nho",
   "7nho7nho7nho7gst3gksRhgCZokhgB3kwgwkwgPmihgekkigQiisgBwkhgCnkhgVkklgGUhkjghkiglkkgIhkjgkkhgF",
   "lkigdxkkgBiklgdpkigPikkgGikrgRhkkgajrhkhrhgVhkvgJhkhgikigqkjrhgNhrjkkrikigiphgkkhgqphgShkjgE",
   "hklrhkogwrigMhkhgskirhgQhrjkprighpiglkkghrhkhgcirjkjrikhrhkigmkhgikhgdkkhrjkog1kirigXhkighkh",
   "rhkhrkgirigirjgpkhgqrigikngjklgDirjkmghrhgirhghrkghrikhrhkhghkhgukigSirjkorikjrhkhg3khgRikhr",
   "ikmrhkhrikhrhkirhkigLnkhrikkgirkkirhkig7kigSirjkorikhrhkigKjkhrhkhrikmrhkhgFjkjgikkrhklgAorj",
   "kprhkigVnkhrlghrigikirhkhphrhphrhkhgNkrjkkgikirkkhgjrhg8kqgIhkmrhphkkgokhgpkmrikjgIhpmktrhki",
   "gVsrhknghkmrhkhgSik2ghrhknrhkirhkigajkmgjkhghkighknphkhgCirlghkighrikhrhkhgbqkirigpkiphrhgQh",
   "riklgjrikhrhkhg3khgVGliwkhgmkvgIGrksrjkjgAOiklgbhkngYAhkhghrXhgnkkgRikhgrrigLFzkighikgcSkkOh",
   "gik3gewkhrhkjgjrhkliokogikng-kkgUkkjgbdhkXhgkkShgokhgukhg2klghkvgQKhknghkxgiknghkighklgEjkhg",
   "AlkngXrkhgdhkkgcvkkgenkigA3kngNjkngVVhjAogtjjg_jhgchjmgsjigujhgijqgyjZhq6ghjvgqjhg0jhgijpghj",
   "kgpjStkljepgojKogQhjAkgUjjsgVijLhgsjkgYhjogqjmgIhjog-jkgqjkgijehgsjPhghjqghjCqghjlghjOhghjng",
   "hj1ghjighjpghj2gAoje_gCAA4iAhkAjiAkkQniQQjgAAcl"]

def wordBreakNames : List (String × Nat) :=
  [("other", 0),
   ("xx", 0),
   ("aletter", 1),
   ("le", 1),
   ("cr", 2),
   ("doublequote", 3),
   ("dq", 3),
   ("extpictle", 4),
   ("extpictxx", 5),
   ("extend", 6),
   ("ex", 7),
   ("extendnumlet", 7),
   ("fo", 8),
   ("format", 8),
   ("hebrewletter", 9),
   ("hl", 9),
   ("ka", 10),
   ("katakana", 10),
   ("lf", 11),
   ("midletter", 12),
   ("ml", 12),
   ("midnum", 13),
   ("mn", 13),
   ("mb", 14),
   ("midnumlet", 14),
   ("newline", 15),
   ("nl", 15),
   ("nu", 16),
   ("numeric", 16),
   ("perltailoredhspace", 17),
   ("regionalindicator", 18),
   ("ri", 18),
   ("singlequote", 19),
   ("sq", 19),
   ("zwj", 20)]

def wordBreakRuns : List String :=
  ["gpxhrhviihgyxhghjhgkzhgkthghuhghwqshthglh6gknhghh6gqvhg6xhgolhhhgiohlhgmhhghshgihhglh3ghh_gh",
   "hAvgmhChmQjhlghhigihkthhhgmhhshhjghhhghh0ghhTighhLkghmnhGlghhGhgihkghhhshhJhthhhgmmNhghmhghm",
   "ighmighmhgop7gkpkhhshgromgmtigimrghohgjhLhm1wqghwhthghhimhhDjghhhmnohghmmhimighmkhiwqhjgihhg",
   "vohhhmhh-m7gihZimrhhguwqhBhmphigithghhhgimhgih2mkhhmphhmjhhmlgyh5mjgkhrglh4ghhmghoiglmphKhm4",
   "ohmBhhWhmjhhmyhhmnhqmigiwqghhwmjghhogihigih2ghhnghhhgjhkgimhhhmngimigimjhhgomhgkhighhjmigiwq",
   "higqhhghmhgimjghhmgkhigih2ghhnghhighhighhigimhghmlgkmigimjgjmhgnhkghhhgnwqmihjmhgrmjghhpghhj",
   "ghh2ghhnghhighhlgimhhhmoghmjghmjgihhgvhimigiwqgphhmmghmjghhogihigih2ghhnghhighhlgimhhhmngimi",
   "gimjgnmjgkhighhjmigiwqghhhgwmhhhghhmgjhjghhkgjhighhhghhigjhigjhjgjhsgkmlgjmjghmkgihhgmmhguwq",
   "gwmlhoghhjghh3ghhwgimhhhmnghmjghmkgnmighhjgihhgihimigiwqgwhhmjghhoghhjghh3ghhqghhlgimhhhmngh",
   "mjghmkgnmigmhighhimigiwqghhimhgsmkhpghhjghhJhmihhmnghmjghmkhhglhjmhgnhjmigiwqgqhmghmjghhygjh",
   "4ghhpghhhgihngjmhgkmmghmhghmogmwqgimigdhmhgimngsmoghwqgXimhgimpgrmnghwqgGhhhg3migmwqgrmhghmh",
   "ghmhgkmihoghhEhgkm0ghmihlmrghmEhgpmhgEjm0ghwqgsmkgkmjghmjgimngjmkgtmsghmhwqmkgihGhghhhglhhgi",
   "hLhghhNqghhkgihnghhhghhkgihJhghhkgihBhghhkgihnghhhghhkgihvghhZhghhkgihDigimjgAhhwgwhWigihmgj",
   "hMzgihxxhh6glhLigjhrgnhymkgphzmjgrhymigshtghhjghmigAimAhgpmhgiwqgBhmjohmhwqgmhZignhlmihChmhh",
   "hglhGigqh_ghmsgkmsgqwqgAkwqgGhh3mlgZhmqghm9gimhwqgmwqg2m_gRhmlhPhmxhogjwqgxmpgsmjh-mthiwqhMh",
   "mugshEhm0gowqgjhjwqhEhgihrglhLhgihjgwmjghm1hkmhhmmhhimjhhglhAmmAihWogihmgihGhgihmgihoghhhghh",
   "hghhhghh_gihVhghhnghhhgjhjghhngjhkgihmgkhtglhjghhngjxrghmh0hoigouigquhgishviolnhgslhginigjth",
   "gklhgqnhgqxholghoqghhhgthhgwhtgThmBhgxhhgkhhgihqghhhgjhlgklhghhhghhhghhhghhkghhqkhgihkglhlgk",
   "hhgxhJhgrlmgvligPrligslhgfilhgGilhg5lrgkljgblhskhhHhgAmligqlhgplhgahlkghlmghlsghlSjgqlWjgilr",
   "ghlhghlhgmlhgjlhgmlhgqligvlhgilhgklhghlhgkljghlhgrllgNhljgplhgulhgulhgUrligPuljgzligThlhgklh",
   "gKlhFngmhkmjhigshGhghhhglhhgihYhgnhhgvmhh3gphnghhnghhnghhnghhnghhnghhnghhnghmAhgPhhhgQuxhgkh",
   "hgEhmmlhqlglhilhgbimiqigjqbighqkglhLhghheigxhAhgQhqwgXklhghlhgWhqPhghqYigIF7hNEhgDihOhgihNog",
   "jhwwqhig0hPhmkghmqghh_mihQimig2hGmgihighhhghhog1hwmhhjmhhkmhh3mlgkmhgzhUhgsmihShmygqwqgmmyhm",
   "gjhhghhimhwqh8mogih3mtgsh9gjmkhPhmuguhhwqgrmhgqwqgmhJhmugphjmhhomigiwqgBhmjgShmhghmjgimiglmi",
   "ghmhg-hrmlgihjmigqhmgihmgihmgphnghhnghhahgmhTjmoghmigiwqgmhEdqgsh3gkhRhgEYohngshlglphmhpqghp",
   "tghplghphghpighpighpqhCjgBhhLrgyhAigihWhgIhhsgkmwthgishthgrmwgjnig4njthghuhghthshg6hlghhHkgi",
   "ohgnuhgkthghuhghwqshthglh6gknhghh6grqYhmih_gjhmgihmgihmgihjg8ojgkhsghh6ghhzghhighhvgihugChhb",
   "jgFihVhgIkmhgCkh9gjhRhgvmhg_hAhgth-glhGhmlglh-gihEhgkhoghhlgKhhekgiwqgmhEhgkhEhgkhIhgohUhgsh",
   "rghhvghhnghhighhrghhvghhnghhigjhUhgshXpgph2gqhog4hmghhKhghhpgFihmgihhghhMhghhigjhhgih3gqh3gp",
   "h_gBihzghhigqh2gqh6gGihYhgmhigAihhmjghmiglmkhkghhjghh9gimjgkmhgAhh9gjh9gDhhoghh8mig5hWhgqh2g",
   "qhzgthygOjhJigXhhThgthThgthEhmkgowqgmwqh8gjmlghh3ganhKhghmigjhigwhjgXhmkh9gqhhgoh2mrg_hymkgK",
   "hh1g7h3gpmjhVhmvg_wqmhhimihhgpmkhNhmrgiohgkmhgqohgih5gnwqgmmjhEhmughwqgkhhmihhgohDhmhgihhgpm",
   "jhQhmuhkgkmkghmiwqhhghhhgDhhyghh5msgmmhhimhgehhnghhhghhkghhvghhqgnhPhmsglwqgmmkghhogihigih2g",
   "hhnghhighhlghmihhmngimigimjgihhgmmhglhlmigimngjmlgrhqghhhgihhghhGhghhhmpghmhgimhghmkghmlhhmh",
   "hhgtmig9hVhmyhkglwqgkmhhjg-hQhm0highhhgowqgGlhPhmngimpg3hkmigChhQhmxgjhhgrwqgGhhLhmthhgnwqgm",
   "w0gZhmvgkwqgGmhMhmvgFjhAiwqg1hogihhgihoghhighh4mmghmigimkhhmhhhmigswqgGihogihHhmngimnhhghhhm",
   "hg7hhmqhIhmnhhmkgomhgohhmrhOhmwgjhhgyhJigHmhBhgvwqgmhpghhFhmoghmohhgvwqg4h-gim2ghmugJihnghhi",
   "ghhGhmmgjmhghmighmnhhmhgowqgmhmghhighhAhmlghmighmlhhgnwqgWphzmkgpmihhmhhtghhChmngjmlgtwqmhgV",
   "ihhgPiha8gGjhPjgxhEmgMSihBjgvhQBhowmhhmmvgqhbcjglhHygZVmh-mywqgGWhhZxgnh_ghwqgmhPighwqgmh-gi",
   "mlgrhQhmngphkgswqgph1glhzgQthNhgjwqgGmhAigAkhLigkmhhhmXhgnmkhtgAihighhhmhgrmigefvqkghqnghqig",
   "hqhgfoqjgShqhguqkgYUihLjglhtgjhpgnhqgjmighokgMCkwqgGwmOhgim3gewmlgjmmoomogimng-mkgUkmjgbthVi",
   "ghhHighhigihhgihigihkghhsghhhghhnghhBighhkgihoghhnghh8ghhkghhlghhhgjhnghhUqgih5ghh5ghh_ghh5g",
   "hh_ghh5ghh_ghh5ghh_ghh5ghhogiwShgAwmXhgkmShgomhgumhg2mlghmvgQChh_gmhmgVmmnghmxgimnghmighmlgl",
   "hehgBhmhgQjhNhgjmnhngiwqgkhhgBqh-mhgxhMhmkwqgWuh8mkwqgWmh-mihhwqgFvhnghhkghhighhvghhFmgrmngJ",
   "hhEimnhhgkwqgGFhhkghh7ghhighhhgihhghhqghhkghhhghhhgmhhgkhhghhhghhhghhjghhighhhgihhghhhghhhgh",
   "hhghhhghhighhhgihkghhnghhkghhkghhhghhqghhxglhjghhlghhxgEqlAogtljg_lhh6gmh6gilkkihskihqgklhgi",
   "lqgylZhy6ghlvgqlhg0lhgilpghlkgplStmllepgolKogQhlAkgUjlsgVilLhgslkgYhlogqlmgIhlog-lkgqlkgileh",
   "gslPhghlqghlCqghllghlOhghlnghl1ghlighlpghl2gQnwqgmle_gDAA4ohg-mAjgAkmQngQQfl"]

def sentenceNames : List (String × Nat) :=
  [("other", 0),
   ("xx", 0),
   ("at", 1),
   ("aterm", 1),
   ("cr", 2),
   ("cl", 3),
   ("close", 3),
   ("ex", 4),
   ("extend", 4),
   ("fo", 5),
   ("format", 5),
   ("lf", 6),
   ("lo", 7),
   ("lower", 7),
   ("nu", 8),
   ("numeric", 8),
   ("le", 9),
   ("oletter", 9),
   ("sc", 10),
   ("scontinue", 10),
   ("st", 11),
   ("sterm", 11),
   ("se", 12),
   ("sep", 12),
   ("sp", 13),
   ("up", 14),
   ("upper", 14)]

def sentenceRuns : List String :=
  ["gpthmhtiihgythrhjhgkjjgiqihhghoqqhgkrhghu6jhghjhgjn6jhghjhgnshg6thgpnhjhghlhgnnhgknhjhgku3gh",
   "unn4ghnouhnhuhnhuhnhuhnhuhnhuhnhuhnhuhnhuhnhuhnhuhnhuhnhuhnhuhnhuhnhuhnhuhnhuhnhuhnhuhnhuhnh",
   "uhnhuhnhuhnhuhnhuhnhuhnhuhniuhnhuhnhuhnhuhnhuhnhuhnhuhnhuhniuhnhuhnhuhnhuhnhuhnhuhnhuhnhuhnh",
   "uhnhuhnhuhnhuhnhuhnhuhnhuhnhuhnhuhnhuhnhuhnhuhnhuhnhuhnhuhnhuinhuhnhuhnjuinhuhnhuinhujniuknh",
   "uinhujnjuinhuinhuhnhuhnhuinhuhniuhnhuinhujnhuhnhuiniphuhnjpkuinhuinhuinhuhnhuhnhuhnhuhnhuhnh",
   "uhnhuhnhuhniuhnhuhnhuhnhuhnhuhnhuhnhuhnhuhnhuhniuinhuhnhujnhuhnhuhnhuhnhuhnhuhnhuhnhuhnhuhnh",
   "uhnhuhnhuhnhuhnhuhnhuhnhuhnhuhnhuhnhuhnhuhnhuhnhuhnhuhnhuhnhuhnhuhnhuhnhuhnhuhnhuhnnuinhuini",
   "uhnhuknhuhnhuhnhuhnhuhnFiphnEhpnnigkpsgunlgnphghphgxkQjuhnhuhnhphghuhnhginkghuhgmuhghujghuhg",
   "huinhuxghupnDhuhniujnjuhnhuhnhuhnhuhnhuhnhuhnhuhnhuhnhuhnhuhnhuhnhuhnluhnhghuhnhuiniuThnQhuh",
   "nhuhnhuhnhuhnhuhnhuhnhuhnhuhnhuhnhuhnhuhnhuhnhuhnhuhnhuhnhuhnhuhnhghknuhnhuhnhuhnhuhnhuhnhuh",
   "nhuhnhuhnhuhnhuhnhuhnhuhnhuhnhuhnhuhnhuhnhuhnhuhnhuhnhuhnhuhnhuhnhuhnhuhnhuhnhuhnhuhnhuinhuh",
   "nhuhnhuhnhuhnhuhnhuhniuhnhuhnhuhnhuhnhuhnhuhnhuhnhuhnhuhnhuhnhuhnhuhnhuhnhuhnhuhnhuhnhuhnhuh",
   "nhuhnhuhnhuhnhuhnhuhnhuhnhuhnhuhnhuhnhuhnhuhnhuhnhuhnhuhnhuhnhuhnhuhnhuhnhuhnhuhnhuhnhuhnhuh",
   "nhuhnhuhnhuhnhuhnhuhnhuhnhuhnhghuGhgiphgjqhginJhrhgnkNhghkhghkighkighkhgop7gkplgslmgmqigikrg",
   "hlhrjpLhk1oqghoighpikhpDjrhphknlhghkmpikighkkpioqpjgiphrjgslhphkhp-k7gipZikrphguoqpBhkppigiq",
   "hrhphgikhgip2kkphkpphkjphklgprhghrhgjrighp5kjgkprglp4ghpmghliglkppKhk4lhkBhpWhkjphkyphknpqki",
   "rioqghpwkjghpogipigip2ghpnghphgjpkgikhphkngikigikjphgokhgkpighpjkigioqpigqphghkhgikjghpmgkpi",
   "gip2ghpnghpighpighpigikhghklgkkigikjgjkhgnpkghphgnoqkipjkhgrkjghppghpjghp2ghpnghpighplgikhph",
   "koghkjghkjgiphgvpikigioqgpphkmghkjghpogipigip2ghpnghpighplgikhphkngikigikjgnkjgkpighpjkigioq",
   "ghphgwkhphghpmgjpjghpkgjpighphghpigjpigjpjgjpsgkklgjkjghkkgiphgmkhguoqgwklpoghpjghp3ghpwgikh",
   "phknghkjghkkgnkighpjgiphgipikigioqgwphkjghpoghpjghp3ghpqghplgikhphknghkjghkkgnkigmpighpikigi",
   "oqghpikhgskkppghpjghpJhkiphknghkjghkkphglpjkhgnpjkigioqgqpmghkjghpygjp4ghppghphgipngjkhgkkmg",
   "hkhghkogmoqgikigtpQhkhpiknglpnkoghoqgHhpighphghplghp4ghphghpqkhpikpphgiplghphghknghoqgipkgAh",
   "phg3kigmoqgrkhghkhghkhjkkipoghpEhgkk0ghkiplkrghkEhgpkhgZhpLhk0phoqrigkpmkkpkkjphkjpiknpjkkpt",
   "ksphkhoqkkgiuGhghuhgluhgipLhghnhpMqghpkgipnghphghpkgipJhghpkgipBhghpkgipnghphghpkgipvghpZhgh",
   "pkgipDigikjgirhgkrig3pwgwuWiginmgjpMzghrhpxthp6jigjpLigjprgnpykkgppzkjrigppykigsptghpjghkigs",
   "pUhkAhgjphgkphkhgioqg4qhrhgkqhrhghkjlhkhoqgmpZignplkipChkhphglpGigqp_ghksgkksgorioqp-giplgrp",
   "Mhgkp6gmoqgGhp3klgkpVhkqghk9gikhoqgmoqgtphrkgkk_gRhklpPhkxpogjoqrigirigrkpgprighkjp-ktpioqpM",
   "hkugspEhk0gjrigjoqgjpjoqpEhrinpuhnhglpLhgipjgwkjghk1pkkhpmkhpikjphglnAmkAiuhnhuhnhuhnhuhnhuh",
   "nhuhnhuhnhuhnhuhnhuhnhuhnhuhnhuhnhuhnhuhnhuhnhuhnhuhnhuhnhuhnhuhnhuhnhuhnhuhnhuhnhuhnhuhnhuh",
   "nhuhnhuhnhuhnhuhnhuhnhuhnhuhnhuhnhuhnhuhnhuhnhuhnhuhnhuhnhuhnhuhnhuhnhuhnhuhnhuhnhuhnhuhnhuh",
   "nhuhnhuhnhuhnhuhnhuhnhuhnhuhnhuhnhuhnhuhnhuhnhuhnhuhnhuhnhuhnhuhnhuhnhuhnhuhnhuhnhuhnhuhnhuh",
   "nhuhnpuhnhuhnhuhnhuhnhuhnhuhnhuhnhuhnhuhnhuhnhuhnhuhnhuhnhuhnhuhnhuhnhuhnhuhnhuhnhuhnhuhnhuh",
   "nhuhnhuhnhuhnhuhnhuhnhuhnhuhnhuhnhuhnhuhnhuhnhuhnhuhnhuhnhuhnhuhnhuhnhuhnhuhnhuhnhuhnhuhnhuh",
   "nhuhnhuhnhuhnhuhnpuonmgiumginouonouonmgiumginoghuhghuhghuhghuhnouonuginouonouonouonlghniulgh",
   "nhgjnjghniulgjnkginiukgknoulglnjghniulgjtrlhkiligjqigjjogkhhgjsillthgpjighrignjirjg1thllghlq",
   "ghnhgrjinhgtjighntgThkBhgxuhgkuhginhujniujnhghuhgjulgmuhghuhghuhghukghnhuknhpknhginiuigluhnk",
   "gknhgxuwnwpjuhnhpkgfrjkg9jigLsu6n6gRzjmgnjugPijig_jqgTsj2gfhjkgAhjigCwuQhnQhuhnhujniuhnhuhnh",
   "uhnhuknhuhniuhnoujnhuhnhuhnhuhnhuhnhuhnhuhnhuhnhuhnhuhnhuhnhuhnhuhnhuhnhuhnhuhnhuhnhuhnhuhnh",
   "uhnhuhnhuhnhuhnhuhnhuhnhuhnhuhnhuhnhuhnhuhnhuhnhuhnhuhnhuhnhuhnhuhnhuhnhuhnhuhnhuhnhuhnhuhnh",
   "uhnhuhnhuhnhuhnhuhnhuhnhuhnhuhnigmuhnhuhnhkjuhnhgsnGhghnhglnhgipYhgnphgvkhp3gppnghpnghpnghpn",
   "ghpnghpnghpnghpnghkAhjugujigijqgkrhphgsrhgljhgwrijogDtthqhrhgipjjqgijoghjjghppkmghplgiplgkpW",
   "igikigipjghpaighpkglpLhghpeigxpAhgQhpwgAwpAOmgAipNU1gDipOhghrhpNoghripwoqpig0uhnhuhnhuhnhuhn",
   "huhnhuhnhuhnhuhnhuhnhuhnhuhnhuhnhuhnhuhnhuhnhuhnhuhnhuhnhuhnhuhnhuhnhuhnhuhnhphkkghkqghphuhn",
   "huhnhuhnhuhnhuhnhuhnhuhnhuhnhuhnhuhnhuhnhuhnhuhnhuhnjkipQikighrhgjrhg_ppgiuhnhuhnhuhnhuhnhuh",
   "nhuhnhuhnjuhnhuhnhuhnhuhnhuhnhuhnhuhnhuhnhuhnhuhnhuhnhuhnhuhnhuhnhuhnhuhnhuhnhuhnhuhnhuhnhuh",
   "nhuhnhuhnhuhnhuhnhuhnhuhnhuhnhuhnhuhnhuhnquhnhuhnhuinhuhnhuhnhuhnhuhnhphgiuhnhuhnhphuhnhuhnj",
   "uhnhuhnhuhnhuhnhuhnhuhnhuhnhuhnhuhnhuhnhulnhulnhuhnhuhnhuhnhuhnhuhnhuhnhuhnhuknhuhnhuinhgiuh",
   "nhghnhghnhuhnhuhnhuhnhuhg1njuhnhphnjpnkhpjkhpkkhp3klgkkhgzpUhgirigokipShkygorioqgmkypmgjphgh",
   "pikhoqp8koghrhp3ktgsp9gjkkpPhkugnriglphoqgmplkhpqoqplghpJhkugppjkhpokigioqgjrjp3gjphkjpShkhp",
   "hkjpikiplkiphkhphg4pjgiprklripjkigqpmgipmgipmgppnghpnghnLhghnugmnQipDhkorhkigioqgmpEdqgsp3gk",
   "pRhgEIopOrgipKjgGhnngsnlglphkhpqghptghplghphghpighpighpMjgBhpLrjigwpAigipWhgIhpsgkkwqighqhgj",
   "jignkwghqigijwgijignqihhgiqhriqhjmgkqhgsplghpHkgilhghrhgmjigiqihhghoqqhgkrhghu6jhghjhgjn6jhg",
   "hjhghjirhjiqhghpYhkip_gjpmgipmgipmgipjg8ljgkpsghp6ghpzghpighpvgipugChpbjgFipVhgIkkhgCkp9gjpR",
   "hgvkhg_pAhgtp-glpGhklglp-gipEhgkpoghplgKhuIhnIhpOigioqgmuEhgknEhgkpIhgopUhgsurghuvghunghuigh",
   "nrghnvghnnghnigjpUhgspXpgpp2gqpog4nhpinjghnKhghnpgFipmgiphghpMhghpigjphgip3gqp3gpp_gBipzghpi",
   "gqp2gqp6gGipYhgmpigAiphkjghkiglkkpkghpjghp9gikjgkkhg2rigop9gjp9gDhpoghp8kig5pWhgqp2gqpzgtpyg",
   "OjpJigXhuThgtnThgtpEhkkgooqgmoqpmu2gjklghphn2ganpKhghkigjpigwpjgXhkkp9gqphgop2krgkrlg2pykkrk",
   "gGhp1g7p3gpkjpVhkvrig9oqkhpikiphgpkkpNhkrgilhrkkhgqlhgip5gnoqgmkjpEhkughoqghrjphkiphgopDhkhg",
   "iphgpkjpQhkupkrigikkrhkioqphghphghrigAhpyghp5ksrighrighkhpikhgehpnghphghpkghpvghpqrhgmpPhksg",
   "loqgmkkghpogipigip2ghpnghpighplghkiphkngikigikjgiphgmkhglplkigikngjklgrpqghphgiphghpGhghphkp",
   "ghkhgikhghkkghklphkhphgtkig9pVhkypkrigjoqgkkhpjg-pQhk0pighphgooqgGlpPhkngikpghriglrvpkkigChp",
   "QhkxrighphgroqgGhpLhktphgnoqgmo0g8p7gikvgkoqgirjghpngZlpMhkvgFjuAhnAhoqg1pogiphgipoghpighp4k",
   "mghkigikkphkhphkirhghrhgpoqgGipogipHhkngiknphghphkhg7phkqpIhknphkkgjrigjkhgophkrpOhkwghriphg",
   "ypJigHmpBhgvoqgmppghpFhkoghkophrigtoqg4p-gik2ghkugJipnghpighpGhkmgjkhghkighknphkhgooqgmpmghp",
   "ighpAhklghkighklphgnoqgWppzkkrignkiphkhptghpChkngjklrigroqkhgViphgPipa8gGjpPjgxpEmgMSipBjgvp",
   "QBhlwkhpmkvgqpbcjglpHygZVmp-kyoqgGWhpZxgnp_ghoqgkripPighoqgmp-giklrhgqpQhknrignpkrhgroqgpp1g",
   "lpzgQtpNhgjoqgGmuAhnAhg4rhgHjpLigkkhphkXhgnkkptgAipighphkhgrkigupYflgopWGhgKhppgHXopkghpnghp",
   "ighpDpgvphg9pjgiphgupkgopMsgEIipLjglptgjppgnpqgjkirhlkgMCkoqgGwkOhgik3gewklgjkmlokogikng-kkg",
   "Ukkjgbtu6n6u6nnghnyu6n6uhghuigiuhgiuigiukghuonkghnhghnnghnru6n6uighukgiuoghunghn6uighukghulg",
   "huhgjunghn6u6n6u6n6u6n6u6n6u6n6u6n8giu5ghn5ghnmu5ghn5ghnmu5ghn5ghnmu5ghn5ghnmu5ghn5ghnmuhnhg",
   "ioShgAwkXhgkkShgokhgukhgjrhgyklghkvgQChnqphn0gmnmgVmknghkxgiknghkighklglnehgBhkhgQjpNhgjknpn",
   "gioqgkphgBqp-khgxpMhkkoqgWup8kkoqgWmp-kiphoqgFvpnghpkghpighpvghpFmgrkngJhuChnChknphgkoqgGFhp",
   "kghp7ghpighphgiphghpqghpkghphghphgmphgkphghphghphghpjghpighphgiphghphghphghphghphghpighphgip",
   "kghpnghpkghpkghphghpqghpxglpjghplghpxgUzu6gmu6gmu6gMHhjjgXLhoqgGAhpAXJhgAhpaBkgmpemgipCUlgup",
   "RJngvpOzgCNipewgCPhpLakglpADkgRCX1lhg-kAjgAkkQngQQfl"]

/-- The characters with a value of a segmentation property. -/
def segment? (names : List (String × Nat)) (runs : List String) (name : String) : Option CharSet :=
  (names.lookup name).map fun n => classified runs [n]

end PairGrep.Pattern.Unicode
