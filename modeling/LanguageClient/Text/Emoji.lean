import LanguageClient.Table
import LanguageClient.Text.Blank
import LanguageClient.Text.Lower
import LanguageClient.Text.Split

/-!
Emoji written by name between colons. A name may be followed by `-text` or `-emoji`, which asks for
that way of drawing. A name that is none of theirs stays as it is.

    :warning:        ⚠
    :warning-text:   ⚠ and the mark that asks for a plain drawing
-/

namespace LanguageClient.Text

/-- The code points of each emoji and its names. A name with `~` at its end also takes skin tones. -/
def emojiList : String := String.join
  ["35+8419 keycap_number_sign;35+65039+8419 keycap_#;42+8419 keycap_asterisk;",
   "42+65039+8419 keycap_*;48+8419 keycap_digit_zero;48+65039+8419 keycap_0 zero;",
   "49+8419 keycap_digit_one;49+65039+8419 keycap_1 one;50+8419 keycap_digit_two;",
   "50+65039+8419 keycap_2 two;51+8419 keycap_digit_three;51+65039+8419 keycap_3 three;",
   "52+8419 keycap_digit_four;52+65039+8419 four keycap_4;53+8419 keycap_digit_five;",
   "53+65039+8419 five keycap_5;54+8419 keycap_digit_six;54+65039+8419 keycap_6 six;",
   "55+8419 keycap_digit_seven;55+65039+8419 keycap_7 seven;56+8419 keycap_digit_eight;",
   "56+65039+8419 eight keycap_8;57+8419 keycap_digit_nine;57+65039+8419 keycap_9 nine;",
   "169 copyright;174 registered;8252 bangbang double_exclamation_mark;",
   "8265 exclamation_question_mark interrobang;8482 tm trade_mark;",
   "8505 information information_source;8596 left-right_arrow left_right_arrow;",
   "8597 arrow_up_down up-down_arrow;8598 arrow_upper_left up-left_arrow;",
   "8599 arrow_upper_right up-right_arrow;8600 arrow_lower_right down-right_arrow;",
   "8601 arrow_lower_left down-left_arrow;",
   "8617 leftwards_arrow_with_hook right_arrow_curving_left;",
   "8618 arrow_right_hook left_arrow_curving_right;8986 watch;8987 hourglass hourglass_done;",
   "9000 keyboard;9096 helm_symbol;9167 eject_button eject_symbol;",
   "9193 fast-forward_button fast_forward;9194 fast_reverse_button rewind;",
   "9195 arrow_double_up fast_up_button;9196 arrow_double_down fast_down_button;",
   "9197 black_right__pointing_double_triangle_with_vertical_bar next_track_button;",
   "9198 black_left__pointing_double_triangle_with_vertical_bar last_track_button;",
   "9199 black_right__pointing_triangle_with_double_vertical_bar play_or_pause_button;",
   "9200 alarm_clock;9201 stopwatch;9202 timer_clock;",
   "9203 hourglass_flowing_sand hourglass_not_done;9208 double_vertical_bar pause_button;",
   "9209 black_square_for_stop stop_button;9210 black_circle_for_record record_button;",
   "9410 circled_m m;9642 black_small_square;9643 white_small_square;",
   "9654 arrow_forward play_button;9664 arrow_backward reverse_button;9723 white_medium_square;",
   "9724 black_medium_square;9725 white_medium-small_square white_medium_small_square;",
   "9726 black_medium-small_square black_medium_small_square;9728 sun sunny;9729 cloud;",
   "9730 umbrella;9731 snowman;9732 comet;9742 phone telephone;9745 ballot_box_with_check;",
   "9748 umbrella_with_rain_drops;9749 coffee hot_beverage;9752 shamrock;",
   "9757 index_pointing_up~ point_up;9760 skull_and_crossbones;",
   "9762 radioactive radioactive_sign;9763 biohazard biohazard_sign;9766 orthodox_cross;",
   "9770 star_and_crescent;9774 peace_symbol;9775 yin_yang;9784 wheel_of_dharma;",
   "9785 frowning_face white_frowning_face;9786 relaxed smiling_face;9792 female_sign;",
   "9794 male_sign;9800 aries;9801 taurus;9802 gemini;9803 cancer;9804 leo;9805 virgo;",
   "9806 libra;9807 scorpio scorpius;9808 sagittarius;9809 capricorn;9810 aquarius;9811 pisces;",
   "9823 chess_pawn;9824 spade_suit spades;9827 club_suit clubs;9829 heart_suit hearts;",
   "9830 diamond_suit diamonds;9832 hot_springs hotsprings;9851 recycle recycling_symbol;",
   "9854 infinity;9855 wheelchair wheelchair_symbol;9874 hammer_and_pick;9875 anchor;",
   "9876 crossed_swords;9877 medical_symbol;9878 balance_scale scales;9879 alembic;9881 gear;",
   "9883 atom_symbol;9884 fleur-de-lis fleur__de__lis;9888 warning;9889 high_voltage zap;",
   "9898 white_circle;9899 black_circle;9904 coffin;9905 funeral_urn;9917 soccer soccer_ball;",
   "9918 baseball;9924 snowman_without_snow;9925 partly_sunny sun_behind_cloud;",
   "9928 cloud_with_lightning_and_rain thunder_cloud_and_rain;9934 ophiuchus;9935 pick;",
   "9937 helmet_with_white_cross rescue_worker’s_helmet;9939 chains;9940 no_entry;",
   "9961 shinto_shrine;9962 church;9968 mountain;9969 umbrella_on_ground;9970 fountain;",
   "9971 flag_in_hole golf;9972 ferry;9973 boat sailboat;9975 skier;9976 ice_skate;",
   "9977 person_bouncing_ball~ person_with_ball;9977+65039+8205+9792+65039 woman_bouncing_ball~;",
   "9977+65039+8205+9794+65039 man_bouncing_ball~;9978 tent;9981 fuel_pump fuelpump;",
   "9986 scissors;9989 white_check_mark white_heavy_check_mark;9992 airplane;",
   "9993 email envelope;9994 fist raised_fist~;9995 hand raised_hand~;9996 v victory_hand~;",
   "9997 writing_hand~;9999 pencil2;10002 black_nib;10004 heavy_check_mark;",
   "10006 heavy_multiplication_x;10013 latin_cross;10017 star_of_david;10024 sparkles;",
   "10035 eight-spoked_asterisk eight_spoked_asterisk;",
   "10036 eight-pointed_star eight_pointed_black_star;10052 snowflake;10055 sparkle;",
   "10060 cross_mark x;10062 cross_mark_button negative_squared_cross_mark;",
   "10067 question question_mark;10068 grey_question white_question_mark;",
   "10069 grey_exclamation white_exclamation_mark;",
   "10071 exclamation exclamation_mark heavy_exclamation_mark;",
   "10083 heavy_heart_exclamation heavy_heart_exclamation_mark_ornament;10084 heart red_heart;",
   "10133 heavy_plus_sign;10134 heavy_minus_sign;10135 heavy_division_sign;",
   "10145 arrow_right right_arrow;10160 curly_loop;10175 double_curly_loop loop;",
   "10548 arrow_heading_up right_arrow_curving_up;",
   "10549 arrow_heading_down right_arrow_curving_down;11013 arrow_left left_arrow;",
   "11014 arrow_up up_arrow;11015 arrow_down down_arrow;11035 black_large_square;",
   "11036 white_large_square;11088 star white_medium_star;11093 heavy_large_circle o;",
   "12336 wavy_dash;12349 part_alternation_mark;",
   "12951 congratulations japanese_congratulations_button;12953 japanese_secret_button secret;",
   "126980 mahjong mahjong_red_dragon;127183 black_joker joker;127344 a a_button_(blood_type);",
   "127345 b b_button_(blood_type);127358 o2 o_button_(blood_type);127359 p_button parking;",
   "127374 ab ab_button_(blood_type);127377 cl cl_button;127378 cool cool_button;",
   "127379 free free_button;127380 id id_button;127381 new new_button;127382 ng ng_button;",
   "127383 ok ok_button;127384 sos sos_button;127385 up up!_button;127386 vs vs_button;",
   "127462 regional_indicator_a regional_indicator_symbol_letter_a;",
   "127462+127464 ascension_island flag_for_ascension_island;",
   "127462+127465 andorra flag_for_andorra;",
   "127462+127466 flag_for_united_arab_emirates united_arab_emirates;",
   "127462+127467 afghanistan flag_for_afghanistan;",
   "127462+127468 antigua_&_barbuda flag_for_antigua_&_barbuda;",
   "127462+127470 anguilla flag_for_anguilla;127462+127473 albania flag_for_albania;",
   "127462+127474 armenia flag_for_armenia;127462+127476 angola flag_for_angola;",
   "127462+127478 antarctica flag_for_antarctica;127462+127479 argentina flag_for_argentina;",
   "127462+127480 american_samoa flag_for_american_samoa;127462+127481 austria flag_for_austria;",
   "127462+127482 australia flag_for_australia;127462+127484 aruba flag_for_aruba;",
   "127462+127485 flag_for_åland_islands åland_islands;",
   "127462+127487 azerbaijan flag_for_azerbaijan;",
   "127463 regional_indicator_b regional_indicator_symbol_letter_b;",
   "127463+127462 bosnia_&_herzegovina flag_for_bosnia_&_herzegovina;",
   "127463+127463 barbados flag_for_barbados;127463+127465 bangladesh flag_for_bangladesh;",
   "127463+127466 belgium flag_for_belgium;127463+127467 burkina_faso flag_for_burkina_faso;",
   "127463+127468 bulgaria flag_for_bulgaria;127463+127469 bahrain flag_for_bahrain;",
   "127463+127470 burundi flag_for_burundi;127463+127471 benin flag_for_benin;",
   "127463+127473 flag_for_st._barthélemy st._barthélemy;127463+127474 bermuda flag_for_bermuda;",
   "127463+127475 brunei flag_for_brunei;127463+127476 bolivia flag_for_bolivia;",
   "127463+127478 caribbean_netherlands flag_for_caribbean_netherlands;",
   "127463+127479 brazil flag_for_brazil;127463+127480 bahamas flag_for_bahamas;",
   "127463+127481 bhutan flag_for_bhutan;127463+127483 bouvet_island flag_for_bouvet_island;",
   "127463+127484 botswana flag_for_botswana;127463+127486 belarus flag_for_belarus;",
   "127463+127487 belize flag_for_belize;",
   "127464 regional_indicator_c regional_indicator_symbol_letter_c;",
   "127464+127462 canada flag_for_canada;",
   "127464+127464 cocos_(keeling)_islands flag_for_cocos__islands;",
   "127464+127465 congo_-_kinshasa flag_for_congo____kinshasa;",
   "127464+127467 central_african_republic flag_for_central_african_republic;",
   "127464+127468 congo_-_brazzaville flag_for_congo____brazzaville;",
   "127464+127469 flag_for_switzerland switzerland;",
   "127464+127470 côte_d’ivoire flag_for_côte_d’ivoire;",
   "127464+127472 cook_islands flag_for_cook_islands;127464+127473 chile flag_for_chile;",
   "127464+127474 cameroon flag_for_cameroon;127464+127475 china flag_for_china;",
   "127464+127476 colombia flag_for_colombia;",
   "127464+127477 clipperton_island flag_for_clipperton_island;",
   "127464+127479 costa_rica flag_for_costa_rica;127464+127482 cuba flag_for_cuba;",
   "127464+127483 cape_verde flag_for_cape_verde;127464+127484 curaçao flag_for_curaçao;",
   "127464+127485 christmas_island flag_for_christmas_island;",
   "127464+127486 cyprus flag_for_cyprus;127464+127487 czechia flag_for_czech_republic;",
   "127465 regional_indicator_d regional_indicator_symbol_letter_d;",
   "127465+127466 flag_for_germany germany;127465+127468 diego_garcia flag_for_diego_garcia;",
   "127465+127471 djibouti flag_for_djibouti;127465+127472 denmark flag_for_denmark;",
   "127465+127474 dominica flag_for_dominica;",
   "127465+127476 dominican_republic flag_for_dominican_republic;",
   "127465+127487 algeria flag_for_algeria;",
   "127466 regional_indicator_e regional_indicator_symbol_letter_e;",
   "127466+127462 ceuta_&_melilla flag_for_ceuta_&_melilla;",
   "127466+127464 ecuador flag_for_ecuador;127466+127466 estonia flag_for_estonia;",
   "127466+127468 egypt flag_for_egypt;127466+127469 flag_for_western_sahara western_sahara;",
   "127466+127479 eritrea flag_for_eritrea;127466+127480 flag_for_spain spain;",
   "127466+127481 ethiopia flag_for_ethiopia;",
   "127466+127482 european_union flag_for_european_union;",
   "127467 regional_indicator_f regional_indicator_symbol_letter_f;",
   "127467+127470 finland flag_for_finland;127467+127471 fiji flag_for_fiji;",
   "127467+127472 falkland_islands flag_for_falkland_islands;",
   "127467+127474 flag_for_micronesia micronesia;",
   "127467+127476 faroe_islands flag_for_faroe_islands;127467+127479 flag_for_france france;",
   "127468 regional_indicator_g regional_indicator_symbol_letter_g;",
   "127468+127462 flag_for_gabon gabon;127468+127463 flag_for_united_kingdom united_kingdom;",
   "127468+127465 flag_for_grenada grenada;127468+127466 flag_for_georgia georgia;",
   "127468+127467 flag_for_french_guiana french_guiana;127468+127468 flag_for_guernsey guernsey;",
   "127468+127469 flag_for_ghana ghana;127468+127470 flag_for_gibraltar gibraltar;",
   "127468+127473 flag_for_greenland greenland;127468+127474 flag_for_gambia gambia;",
   "127468+127475 flag_for_guinea guinea;127468+127477 flag_for_guadeloupe guadeloupe;",
   "127468+127478 equatorial_guinea flag_for_equatorial_guinea;",
   "127468+127479 flag_for_greece greece;",
   "127468+127480 flag_for_south_georgia_&_south_sandwich_islands south_georgia_&_south_sandwich_islands;",
   "127468+127481 flag_for_guatemala guatemala;127468+127482 flag_for_guam guam;",
   "127468+127484 flag_for_guinea__bissau guinea-bissau;127468+127486 flag_for_guyana guyana;",
   "127469 regional_indicator_h regional_indicator_symbol_letter_h;",
   "127469+127472 flag_for_hong_kong hong_kong_sar_china;",
   "127469+127474 flag_for_heard_&_mcdonald_islands heard_&_mcdonald_islands;",
   "127469+127475 flag_for_honduras honduras;127469+127479 croatia flag_for_croatia;",
   "127469+127481 flag_for_haiti haiti;127469+127482 flag_for_hungary hungary;",
   "127470 regional_indicator_i regional_indicator_symbol_letter_i;",
   "127470+127464 canary_islands flag_for_canary_islands;",
   "127470+127465 flag_for_indonesia indonesia;127470+127466 flag_for_ireland ireland;",
   "127470+127473 flag_for_israel israel;127470+127474 flag_for_isle_of_man isle_of_man;",
   "127470+127475 flag_for_india india;",
   "127470+127476 british_indian_ocean_territory flag_for_british_indian_ocean_territory;",
   "127470+127478 flag_for_iraq iraq;127470+127479 flag_for_iran iran;",
   "127470+127480 flag_for_iceland iceland;127470+127481 flag_for_italy italy;",
   "127471 regional_indicator_j regional_indicator_symbol_letter_j;",
   "127471+127466 flag_for_jersey jersey;127471+127474 flag_for_jamaica jamaica;",
   "127471+127476 flag_for_jordan jordan;127471+127477 flag_for_japan;",
   "127472 regional_indicator_k regional_indicator_symbol_letter_k;",
   "127472+127466 flag_for_kenya kenya;127472+127468 flag_for_kyrgyzstan kyrgyzstan;",
   "127472+127469 cambodia flag_for_cambodia;127472+127470 flag_for_kiribati kiribati;",
   "127472+127474 comoros flag_for_comoros;",
   "127472+127475 flag_for_st._kitts_&_nevis st._kitts_&_nevis;",
   "127472+127477 flag_for_north_korea north_korea;",
   "127472+127479 flag_for_south_korea south_korea;127472+127484 flag_for_kuwait kuwait;",
   "127472+127486 cayman_islands flag_for_cayman_islands;",
   "127472+127487 flag_for_kazakhstan kazakhstan;",
   "127473 regional_indicator_l regional_indicator_symbol_letter_l;",
   "127473+127462 flag_for_laos laos;127473+127463 flag_for_lebanon lebanon;",
   "127473+127464 flag_for_st._lucia st._lucia;",
   "127473+127470 flag_for_liechtenstein liechtenstein;",
   "127473+127472 flag_for_sri_lanka sri_lanka;127473+127479 flag_for_liberia liberia;",
   "127473+127480 flag_for_lesotho lesotho;127473+127481 flag_for_lithuania lithuania;",
   "127473+127482 flag_for_luxembourg luxembourg;127473+127483 flag_for_latvia latvia;",
   "127473+127486 flag_for_libya libya;",
   "127474 regional_indicator_m regional_indicator_symbol_letter_m;",
   "127474+127462 flag_for_morocco morocco;127474+127464 flag_for_monaco monaco;",
   "127474+127465 flag_for_moldova moldova;127474+127466 flag_for_montenegro montenegro;",
   "127474+127467 flag_for_st._martin st._martin;127474+127468 flag_for_madagascar madagascar;",
   "127474+127469 flag_for_marshall_islands marshall_islands;",
   "127474+127472 flag_for_macedonia macedonia;127474+127473 flag_for_mali mali;",
   "127474+127474 flag_for_myanmar myanmar_(burma);127474+127475 flag_for_mongolia mongolia;",
   "127474+127476 flag_for_macau macau_sar_china;",
   "127474+127477 flag_for_northern_mariana_islands northern_mariana_islands;",
   "127474+127478 flag_for_martinique martinique;127474+127479 flag_for_mauritania mauritania;",
   "127474+127480 flag_for_montserrat montserrat;127474+127481 flag_for_malta malta;",
   "127474+127482 flag_for_mauritius mauritius;127474+127483 flag_for_maldives maldives;",
   "127474+127484 flag_for_malawi malawi;127474+127485 flag_for_mexico mexico;",
   "127474+127486 flag_for_malaysia malaysia;127474+127487 flag_for_mozambique mozambique;",
   "127475 regional_indicator_n regional_indicator_symbol_letter_n;",
   "127475+127462 flag_for_namibia namibia;127475+127464 flag_for_new_caledonia new_caledonia;",
   "127475+127466 flag_for_niger niger;127475+127467 flag_for_norfolk_island norfolk_island;",
   "127475+127468 flag_for_nigeria nigeria;127475+127470 flag_for_nicaragua nicaragua;",
   "127475+127473 flag_for_netherlands netherlands;127475+127476 flag_for_norway norway;",
   "127475+127477 flag_for_nepal nepal;127475+127479 flag_for_nauru nauru;",
   "127475+127482 flag_for_niue niue;127475+127487 flag_for_new_zealand new_zealand;",
   "127476 regional_indicator_o regional_indicator_symbol_letter_o;",
   "127476+127474 flag_for_oman oman;",
   "127477 regional_indicator_p regional_indicator_symbol_letter_p;",
   "127477+127462 flag_for_panama panama;127477+127466 flag_for_peru peru;",
   "127477+127467 flag_for_french_polynesia french_polynesia;",
   "127477+127468 flag_for_papua_new_guinea papua_new_guinea;",
   "127477+127469 flag_for_philippines philippines;127477+127472 flag_for_pakistan pakistan;",
   "127477+127473 flag_for_poland poland;",
   "127477+127474 flag_for_st._pierre_&_miquelon st._pierre_&_miquelon;",
   "127477+127475 flag_for_pitcairn_islands pitcairn_islands;",
   "127477+127479 flag_for_puerto_rico puerto_rico;",
   "127477+127480 flag_for_palestinian_territories palestinian_territories;",
   "127477+127481 flag_for_portugal portugal;127477+127484 flag_for_palau palau;",
   "127477+127486 flag_for_paraguay paraguay;",
   "127478 regional_indicator_q regional_indicator_symbol_letter_q;",
   "127478+127462 flag_for_qatar qatar;",
   "127479 regional_indicator_r regional_indicator_symbol_letter_r;",
   "127479+127466 flag_for_réunion réunion;127479+127476 flag_for_romania romania;",
   "127479+127480 flag_for_serbia serbia;127479+127482 flag_for_russia russia;",
   "127479+127484 flag_for_rwanda rwanda;",
   "127480 regional_indicator_s regional_indicator_symbol_letter_s;",
   "127480+127462 flag_for_saudi_arabia saudi_arabia;",
   "127480+127463 flag_for_solomon_islands solomon_islands;",
   "127480+127464 flag_for_seychelles seychelles;127480+127465 flag_for_sudan sudan;",
   "127480+127466 flag_for_sweden sweden;127480+127468 flag_for_singapore singapore;",
   "127480+127469 flag_for_st._helena st._helena;127480+127470 flag_for_slovenia slovenia;",
   "127480+127471 flag_for_svalbard_&_jan_mayen svalbard_&_jan_mayen;",
   "127480+127472 flag_for_slovakia slovakia;127480+127473 flag_for_sierra_leone sierra_leone;",
   "127480+127474 flag_for_san_marino san_marino;127480+127475 flag_for_senegal senegal;",
   "127480+127476 flag_for_somalia somalia;127480+127479 flag_for_suriname suriname;",
   "127480+127480 flag_for_south_sudan south_sudan;",
   "127480+127481 flag_for_são_tomé_&_príncipe são_tomé_&_príncipe;",
   "127480+127483 el_salvador flag_for_el_salvador;",
   "127480+127485 flag_for_sint_maarten sint_maarten;127480+127486 flag_for_syria syria;",
   "127480+127487 flag_for_swaziland swaziland;",
   "127481 regional_indicator_symbol_letter_t regional_indicator_t;",
   "127481+127462 flag_for_tristan_da_cunha tristan_da_cunha;",
   "127481+127464 flag_for_turks_&_caicos_islands turks_&_caicos_islands;",
   "127481+127465 chad flag_for_chad;",
   "127481+127467 flag_for_french_southern_territories french_southern_territories;",
   "127481+127468 flag_for_togo togo;127481+127469 flag_for_thailand thailand;",
   "127481+127471 flag_for_tajikistan tajikistan;127481+127472 flag_for_tokelau tokelau;",
   "127481+127473 flag_for_timor__leste timor-leste;",
   "127481+127474 flag_for_turkmenistan turkmenistan;127481+127475 flag_for_tunisia tunisia;",
   "127481+127476 flag_for_tonga tonga;127481+127479 flag_for_turkey;",
   "127481+127481 flag_for_trinidad_&_tobago trinidad_&_tobago;",
   "127481+127483 flag_for_tuvalu tuvalu;127481+127484 flag_for_taiwan taiwan;",
   "127481+127487 flag_for_tanzania tanzania;",
   "127482 regional_indicator_symbol_letter_u regional_indicator_u;",
   "127482+127462 flag_for_ukraine ukraine;127482+127468 flag_for_uganda uganda;",
   "127482+127474 flag_for_u.s._outlying_islands u.s._outlying_islands;",
   "127482+127475 united_nations;127482+127480 flag_for_united_states united_states;",
   "127482+127486 flag_for_uruguay uruguay;127482+127487 flag_for_uzbekistan uzbekistan;",
   "127483 regional_indicator_symbol_letter_v regional_indicator_v;",
   "127483+127462 flag_for_vatican_city vatican_city;",
   "127483+127464 flag_for_st._vincent_&_grenadines st._vincent_&_grenadines;",
   "127483+127466 flag_for_venezuela venezuela;",
   "127483+127468 british_virgin_islands flag_for_british_virgin_islands;",
   "127483+127470 flag_for_u.s._virgin_islands u.s._virgin_islands;",
   "127483+127475 flag_for_vietnam vietnam;127483+127482 flag_for_vanuatu vanuatu;",
   "127484 regional_indicator_symbol_letter_w regional_indicator_w;",
   "127484+127467 flag_for_wallis_&_futuna wallis_&_futuna;127484+127480 flag_for_samoa samoa;",
   "127485 regional_indicator_symbol_letter_x regional_indicator_x;",
   "127485+127472 flag_for_kosovo kosovo;",
   "127486 regional_indicator_symbol_letter_y regional_indicator_y;",
   "127486+127466 flag_for_yemen yemen;127486+127481 flag_for_mayotte mayotte;",
   "127487 regional_indicator_symbol_letter_z regional_indicator_z;",
   "127487+127462 flag_for_south_africa south_africa;127487+127474 flag_for_zambia zambia;",
   "127487+127484 flag_for_zimbabwe zimbabwe;127489 japanese_here_button koko;",
   "127490 japanese_service_charge_button sa;127514 japanese_free_of_charge_button u7121;",
   "127535 japanese_reserved_button u6307;127538 japanese_prohibited_button u7981;",
   "127539 japanese_vacancy_button u7a7a;127540 japanese_passing_grade_button u5408;",
   "127541 japanese_no_vacancy_button u6e80;127542 japanese_not_free_of_charge_button u6709;",
   "127543 japanese_monthly_amount_button u6708;127544 japanese_application_button u7533;",
   "127545 japanese_discount_button u5272;127546 japanese_open_for_business_button u55b6;",
   "127568 ideograph_advantage japanese_bargain_button;127569 accept japanese_acceptable_button;",
   "127744 cyclone;127745 foggy;127746 closed_umbrella;127747 night_with_stars;",
   "127748 sunrise_over_mountains;127749 sunrise;127750 city_sunset cityscape_at_dusk;",
   "127751 city_sunrise sunset;127752 rainbow;127753 bridge_at_night;127754 ocean water_wave;",
   "127755 volcano;127756 milky_way;127757 earth_africa globe_showing_europe-africa;",
   "127758 earth_americas globe_showing_americas;127759 earth_asia globe_showing_asia-australia;",
   "127760 globe_with_meridians;127761 new_moon;127762 waxing_crescent_moon;",
   "127763 first_quarter_moon;127764 moon waxing_gibbous_moon;127765 full_moon;",
   "127766 waning_gibbous_moon;127767 last_quarter_moon;127768 waning_crescent_moon;",
   "127769 crescent_moon;127770 new_moon_face new_moon_with_face;",
   "127771 first_quarter_moon_face first_quarter_moon_with_face;",
   "127772 last_quarter_moon_face last_quarter_moon_with_face;",
   "127773 full_moon_face full_moon_with_face;127774 sun_with_face;127775 glowing_star star2;",
   "127776 shooting_star stars;127777 thermometer;",
   "127780 sun_behind_small_cloud white_sun_with_small_cloud;",
   "127781 sun_behind_large_cloud white_sun_behind_cloud;",
   "127782 sun_behind_rain_cloud white_sun_behind_cloud_with_rain;127783 cloud_with_rain;",
   "127784 cloud_with_snow;127785 cloud_with_lightning;127786 cloud_with_tornado tornado;",
   "127787 fog;127788 wind_blowing_face wind_face;127789 hot_dog;127790 taco;127791 burrito;",
   "127792 chestnut;127793 seedling;127794 evergreen_tree;127795 deciduous_tree;",
   "127796 palm_tree;127797 cactus;127798 hot_pepper;127799 tulip;127800 cherry_blossom;",
   "127801 rose;127802 hibiscus;127803 sunflower;127804 blossom;127805 corn ear_of_corn;",
   "127806 ear_of_rice sheaf_of_rice;127807 herb;127808 four_leaf_clover;127809 maple_leaf;",
   "127810 fallen_leaf;127811 leaf_fluttering_in_wind leaves;127812 mushroom;127813 tomato;",
   "127814 eggplant;127815 grapes;127816 melon;127817 watermelon;127818 tangerine;127819 lemon;",
   "127820 banana;127821 pineapple;127822 apple red_apple;127823 green_apple;127824 pear;",
   "127825 peach;127826 cherries;127827 strawberry;127828 hamburger;127829 pizza;",
   "127830 meat_on_bone;127831 poultry_leg;127832 rice_cracker;127833 rice_ball;",
   "127834 cooked_rice rice;127835 curry curry_rice;127836 ramen steaming_bowl;127837 spaghetti;",
   "127838 bread;127839 french_fries fries;127840 roasted_sweet_potato sweet_potato;",
   "127841 dango;127842 oden;127843 sushi;127844 fried_shrimp;",
   "127845 fish_cake fish_cake_with_swirl;127846 icecream soft_ice_cream;127847 shaved_ice;",
   "127848 ice_cream;127849 doughnut;127850 cookie;127851 chocolate_bar;127852 candy;",
   "127853 lollipop;127854 custard;127855 honey_pot;127856 cake shortcake;",
   "127857 bento bento_box;127858 pot_of_food stew;127859 cooking egg;127860 fork_and_knife;",
   "127861 tea teacup_without_handle;127862 sake;127863 wine_glass;",
   "127864 cocktail cocktail_glass;127865 tropical_drink;127866 beer beer_mug;",
   "127867 beers clinking_beer_mugs;127868 baby_bottle;127869 fork_and_knife_with_plate;",
   "127870 bottle_with_popping_cork;127871 popcorn;127872 ribbon;127873 gift wrapped_gift;",
   "127874 birthday birthday_cake;127875 jack-o-lantern jack_o_lantern;127876 christmas_tree;",
   "127877 santa santa_claus~;127878 fireworks;127879 sparkler;127880 balloon;",
   "127881 party_popper tada;127882 confetti_ball;127883 tanabata_tree;127884 crossed_flags;",
   "127885 bamboo pine_decoration;127886 dolls japanese_dolls;127887 carp_streamer flags;",
   "127888 wind_chime;127889 moon_viewing_ceremony rice_scene;",
   "127890 school_backpack school_satchel;127891 graduation_cap mortar_board;",
   "127894 military_medal;127895 reminder_ribbon;127897 studio_microphone;127898 level_slider;",
   "127899 control_knobs;127902 film_frames;127903 admission_tickets;127904 carousel_horse;",
   "127905 ferris_wheel;127906 roller_coaster;127907 fishing_pole fishing_pole_and_fish;",
   "127908 microphone;127909 movie_camera;127910 cinema;127911 headphone headphones;",
   "127912 art artist_palette;127913 top_hat tophat;127914 circus_tent;127915 ticket;",
   "127916 clapper clapper_board;127917 performing_arts;127918 video_game;",
   "127919 dart direct_hit;127920 slot_machine;127921 8ball pool_8_ball;127922 game_die;",
   "127923 bowling;127924 flower_playing_cards;127925 musical_note;127926 musical_notes notes;",
   "127927 saxophone;127928 guitar;127929 musical_keyboard;127930 trumpet;127931 violin;",
   "127932 musical_score;127933 running_shirt running_shirt_with_sash;127934 tennis;",
   "127935 ski skis;127936 basketball;127937 checkered_flag chequered_flag;127938 snowboarder~;",
   "127939 person_running~ runner running;127939+8205+9792+65039 woman_running~;",
   "127939+8205+9794+65039 man_running~;127940 person_surfing~ surfer;",
   "127940+8205+9792+65039 woman_surfing~;127940+8205+9794+65039 man_surfing~;",
   "127941 sports_medal;127942 trophy;127943 horse_racing~;127944 american_football football;",
   "127945 rugby_football;127946 person_swimming~ swimmer;",
   "127946+8205+9792+65039 woman_swimming~;127946+8205+9794+65039 man_swimming~;",
   "127947 person_lifting_weights~ weight_lifter;",
   "127947+65039+8205+9792+65039 woman_lifting_weights~;",
   "127947+65039+8205+9794+65039 man_lifting_weights~;127948 golfer person_golfing~;",
   "127948+65039+8205+9792+65039 woman_golfing~;127948+65039+8205+9794+65039 man_golfing~;",
   "127949 motorcycle racing_motorcycle;127950 racing_car;",
   "127951 cricket_bat_and_ball cricket_game;127952 volleyball;",
   "127953 field_hockey field_hockey_stick_and_ball;127954 ice_hockey ice_hockey_stick_and_puck;",
   "127955 ping_pong table_tennis_paddle_and_ball;",
   "127956 snow-capped_mountain snow_capped_mountain;127957 camping;127958 beach_with_umbrella;",
   "127959 building_construction;127960 house_buildings houses;127961 cityscape;",
   "127962 derelict_house derelict_house_building;127963 classical_building;127964 desert;",
   "127965 desert_island;127966 national_park;127967 stadium;127968 house;",
   "127969 house_with_garden;127970 office office_building;",
   "127971 japanese_post_office post_office;127972 european_post_office;127973 hospital;",
   "127974 bank;127975 atm atm_sign;127976 hotel;127977 love_hotel;127978 convenience_store;",
   "127979 school;127980 department_store;127981 factory;",
   "127982 izakaya_lantern lantern red_paper_lantern;127983 japanese_castle;",
   "127984 castle european_castle;127987 waving_white_flag white_flag;",
   "127987+65039+8205+127752 rainbow_flag;127988 black_flag waving_black_flag;",
   "127988+8205+9760+65039 pirate_flag;127988+917607+917602+917605+917614+917607+917631 england;",
   "127988+917607+917602+917619+917603+917620+917631 scotland;",
   "127988+917607+917602+917623+917612+917619+917631 wales;127989 rosette;127991 label;",
   "127992 badminton badminton_racquet_and_shuttlecock;127993 bow_and_arrow;127994 amphora;",
   "127995 emoji_modifier_fitzpatrick_type__1__2 light_skin_tone;",
   "127996 emoji_modifier_fitzpatrick_type__3 medium_light_skin_tone;",
   "127997 emoji_modifier_fitzpatrick_type__4 medium_skin_tone;",
   "127998 emoji_modifier_fitzpatrick_type__5 medium_dark_skin_tone;",
   "127999 dark_skin_tone emoji_modifier_fitzpatrick_type__6;128000 rat;128001 mouse2;128002 ox;",
   "128003 water_buffalo;128004 cow2;128005 tiger2;128006 leopard;128007 rabbit2;128008 cat2;",
   "128009 dragon;128010 crocodile;128011 whale2;128012 snail;128013 snake;128014 racehorse;",
   "128015 ram;128016 goat;128017 ewe sheep;128018 monkey;128019 rooster;128020 chicken;",
   "128021 dog2;128021+8205+129466 service_dog;128022 pig2;128023 boar;128024 elephant;",
   "128025 octopus;128026 shell spiral_shell;128027 bug;128028 ant;128029 bee honeybee;",
   "128030 beetle lady_beetle;128031 fish;128032 tropical_fish;128033 blowfish;128034 turtle;",
   "128035 hatching_chick;128036 baby_chick;128037 front-facing_baby_chick hatched_chick;",
   "128038 bird;128039 penguin;128040 koala;128041 poodle;128042 dromedary_camel;",
   "128043 camel two-hump_camel;128044 dolphin flipper;128045 mouse mouse_face;",
   "128046 cow cow_face;128047 tiger tiger_face;128048 rabbit rabbit_face;128049 cat cat_face;",
   "128050 dragon_face;128051 spouting_whale whale;128052 horse horse_face;128053 monkey_face;",
   "128054 dog dog_face;128055 pig pig_face;128056 frog frog_face;128057 hamster hamster_face;",
   "128058 wolf wolf_face;128059 bear bear_face;128060 panda_face;128061 pig_nose;",
   "128062 feet paw_prints;128063 chipmunk;128064 eyes;128065 eye;",
   "128065+65039+8205+128488+65039 eye_in_speech_bubble;128066 ear~;128067 nose~;",
   "128068 lips mouth;128069 tongue;128070 backhand_index_pointing_up~ point_up_2;",
   "128071 backhand_index_pointing_down~ point_down;",
   "128072 backhand_index_pointing_left~ point_left;",
   "128073 backhand_index_pointing_right~ point_right;128074 facepunch oncoming_fist~ punch;",
   "128075 wave waving_hand~;128076 ok_hand~;128077 +1 thumbs_up~ thumbsup;",
   "128078 -1 __1 thumbs_down~ thumbsdown;128079 clap clapping_hands~;128080 open_hands~;",
   "128081 crown;128082 womans_hat woman’s_hat;128083 eyeglasses glasses;128084 necktie;",
   "128085 shirt t-shirt tshirt;128086 jeans;128087 dress;128088 kimono;128089 bikini;",
   "128090 womans_clothes woman’s_clothes;128091 purse;128092 handbag;128093 clutch_bag pouch;",
   "128094 mans_shoe man’s_shoe shoe;128095 athletic_shoe running_shoe;",
   "128096 high-heeled_shoe high_heel;128097 sandal woman’s_sandal;128098 boot woman’s_boot;",
   "128099 footprints;128100 bust_in_silhouette;128101 busts_in_silhouette;128102 boy~;",
   "128103 girl~;128104 man~;128104+8205+9877+65039 man_health_worker~;",
   "128104+8205+9878+65039 man_judge~;128104+8205+9992+65039 man_pilot~;",
   "128104+8205+10084+65039+8205+128104 couple_with_heart_man_man;",
   "128104+8205+10084+65039+8205+128139+8205+128104 kiss_man_man;128104+8205+127806 man_farmer~;",
   "128104+8205+127859 man_cook~;128104+8205+127891 man_student~;128104+8205+127908 man_singer~;",
   "128104+8205+127912 man_artist~;128104+8205+127979 man_teacher~;",
   "128104+8205+127981 man_factory_worker~;128104+8205+128102 family_man_boy;",
   "128104+8205+128102+8205+128102 family_man_boy_boy;128104+8205+128103 family_man_girl;",
   "128104+8205+128103+8205+128102 family_man_girl_boy;",
   "128104+8205+128103+8205+128103 family_man_girl_girl;",
   "128104+8205+128104+8205+128102 family_man_man_boy;",
   "128104+8205+128104+8205+128102+8205+128102 family_man_man_boy_boy;",
   "128104+8205+128104+8205+128103 family_man_man_girl;",
   "128104+8205+128104+8205+128103+8205+128102 family_man_man_girl_boy;",
   "128104+8205+128104+8205+128103+8205+128103 family_man_man_girl_girl;",
   "128104+8205+128105+8205+128102 family_man_woman_boy;",
   "128104+8205+128105+8205+128102+8205+128102 family_man_woman_boy_boy;",
   "128104+8205+128105+8205+128103 family_man_woman_girl;",
   "128104+8205+128105+8205+128103+8205+128102 family_man_woman_girl_boy;",
   "128104+8205+128105+8205+128103+8205+128103 family_man_woman_girl_girl;",
   "128104+8205+128187 man_technologist~;128104+8205+128188 man_office_worker~;",
   "128104+8205+128295 man_mechanic~;128104+8205+128300 man_scientist~;",
   "128104+8205+128640 man_astronaut~;128104+8205+128658 man_firefighter~;",
   "128104+8205+129455 man_with_probing_cane;128104+8205+129456 red-haired_man;",
   "128104+8205+129457 curly-haired_man;128104+8205+129458 bald_man;",
   "128104+8205+129459 white-haired_man;128104+8205+129468 man_in_motorized_wheelchair;",
   "128104+8205+129469 man_in_manual_wheelchair;128105 woman~;",
   "128105+8205+9877+65039 woman_health_worker~;128105+8205+9878+65039 woman_judge~;",
   "128105+8205+9992+65039 woman_pilot~;",
   "128105+8205+10084+65039+8205+128104 couple_with_heart_woman_man;",
   "128105+8205+10084+65039+8205+128105 couple_with_heart_woman_woman;",
   "128105+8205+10084+65039+8205+128139+8205+128104 kiss_woman_man;",
   "128105+8205+10084+65039+8205+128139+8205+128105 kiss_woman_woman;",
   "128105+8205+127806 woman_farmer~;128105+8205+127859 woman_cook~;",
   "128105+8205+127891 woman_student~;128105+8205+127908 woman_singer~;",
   "128105+8205+127912 woman_artist~;128105+8205+127979 woman_teacher~;",
   "128105+8205+127981 woman_factory_worker~;128105+8205+128102 family_woman_boy;",
   "128105+8205+128102+8205+128102 family_woman_boy_boy;128105+8205+128103 family_woman_girl;",
   "128105+8205+128103+8205+128102 family_woman_girl_boy;",
   "128105+8205+128103+8205+128103 family_woman_girl_girl;",
   "128105+8205+128105+8205+128102 family_woman_woman_boy;",
   "128105+8205+128105+8205+128102+8205+128102 family_woman_woman_boy_boy;",
   "128105+8205+128105+8205+128103 family_woman_woman_girl;",
   "128105+8205+128105+8205+128103+8205+128102 family_woman_woman_girl_boy;",
   "128105+8205+128105+8205+128103+8205+128103 family_woman_woman_girl_girl;",
   "128105+8205+128187 woman_technologist~;128105+8205+128188 woman_office_worker~;",
   "128105+8205+128295 woman_mechanic~;128105+8205+128300 woman_scientist~;",
   "128105+8205+128640 woman_astronaut~;128105+8205+128658 woman_firefighter~;",
   "128105+8205+129455 woman_with_probing_cane;128105+8205+129456 red-haired_woman;",
   "128105+8205+129457 curly-haired_woman;128105+8205+129458 bald_woman;",
   "128105+8205+129459 white-haired_woman;128105+8205+129468 woman_in_motorized_wheelchair;",
   "128105+8205+129469 woman_in_manual_wheelchair;128106 family;",
   "128107 couple man_and_woman_holding_hands;128108 two_men_holding_hands;",
   "128109 two_women_holding_hands;128110 cop police_officer~;",
   "128110+8205+9792+65039 woman_police_officer~;128110+8205+9794+65039 man_police_officer~;",
   "128111 dancers people_with_bunny_ears;128111+8205+9792+65039 women_with_bunny_ears;",
   "128111+8205+9794+65039 men_with_bunny_ears;128112 bride_with_veil~;",
   "128113 blond-haired_person~ person_with_blond_hair;",
   "128113+8205+9792+65039 blond-haired_woman~;128113+8205+9794+65039 blond-haired_man~;",
   "128114 man_with_chinese_cap~ man_with_gua_pi_mao;",
   "128115 man_with_turban person_wearing_turban~;128115+8205+9792+65039 woman_wearing_turban~;",
   "128115+8205+9794+65039 man_wearing_turban~;128116 old_man~ older_man;",
   "128117 old_woman~ older_woman;128118 baby~;128119 construction_worker~;",
   "128119+8205+9792+65039 woman_construction_worker~;",
   "128119+8205+9794+65039 man_construction_worker~;128120 princess~;128121 japanese_ogre ogre;",
   "128122 goblin japanese_goblin;128123 ghost;128124 angel baby_angel~;128125 alien;",
   "128126 alien_monster space_invader;128127 angry_face_with_horns imp;128128 skull;",
   "128129 information_desk_person person_tipping_hand~;",
   "128129+8205+9792+65039 woman_tipping_hand~;128129+8205+9794+65039 man_tipping_hand~;",
   "128130 guard~ guardsman;128130+8205+9792+65039 woman_guard~;",
   "128130+8205+9794+65039 man_guard~;128131 dancer woman_dancing~;128132 lipstick;",
   "128133 nail_care nail_polish~;128134 massage person_getting_massage~;",
   "128134+8205+9792+65039 woman_getting_massage~;128134+8205+9794+65039 man_getting_massage~;",
   "128135 haircut person_getting_haircut~;128135+8205+9792+65039 woman_getting_haircut~;",
   "128135+8205+9794+65039 man_getting_haircut~;128136 barber barber_pole;128137 syringe;",
   "128138 pill;128139 kiss kiss_mark;128140 love_letter;128141 ring;128142 gem gem_stone;",
   "128143 couplekiss;128144 bouquet;128145 couple_with_heart;128146 wedding;",
   "128147 beating_heart heartbeat;128148 broken_heart;128149 two_hearts;128150 sparkling_heart;",
   "128151 growing_heart heartpulse;128152 cupid heart_with_arrow;128153 blue_heart;",
   "128154 green_heart;128155 yellow_heart;128156 purple_heart;",
   "128157 gift_heart heart_with_ribbon;128158 revolving_hearts;128159 heart_decoration;",
   "128160 diamond_shape_with_a_dot_inside diamond_with_a_dot;128161 bulb light_bulb;",
   "128162 anger anger_symbol;128163 bomb;128164 zzz;128165 boom collision;",
   "128166 sweat_droplets sweat_drops;128167 droplet;128168 dash dashing_away;",
   "128169 hankey pile_of_poo poop shit;128170 flexed_biceps~ muscle;128171 dizzy;",
   "128172 speech_balloon;128173 thought_balloon;128174 white_flower;128175 100 hundred_points;",
   "128176 money_bag moneybag;128177 currency_exchange;128178 heavy_dollar_sign;",
   "128179 credit_card;128180 yen yen_banknote;128181 dollar dollar_banknote;",
   "128182 euro euro_banknote;128183 pound pound_banknote;128184 money_with_wings;",
   "128185 chart chart_increasing_with_yen;128186 seat;128187 computer laptop_computer;",
   "128188 briefcase;128189 computer_disk minidisc;128190 floppy_disk;128191 cd optical_disk;",
   "128192 dvd;128193 file_folder;128194 open_file_folder;128195 page_with_curl;",
   "128196 page_facing_up;128197 date;128198 calendar tear-off_calendar;128199 card_index;",
   "128200 chart_increasing chart_with_upwards_trend;",
   "128201 chart_decreasing chart_with_downwards_trend;128202 bar_chart;128203 clipboard;",
   "128204 pushpin;128205 round_pushpin;128206 paperclip;128207 straight_ruler;",
   "128208 triangular_ruler;128209 bookmark_tabs;128210 ledger;128211 notebook;",
   "128212 notebook_with_decorative_cover;128213 closed_book;128214 book open_book;",
   "128215 green_book;128216 blue_book;128217 orange_book;128218 books;128219 name_badge;",
   "128220 scroll;128221 memo pencil;128222 telephone_receiver;128223 pager;",
   "128224 fax fax_machine;128225 satellite satellite_antenna;128226 loudspeaker;",
   "128227 mega megaphone;128228 outbox_tray;128229 inbox_tray;128230 package;",
   "128231 e-mail e__mail;128232 incoming_envelope;128233 envelope_with_arrow;",
   "128234 closed_mailbox_with_lowered_flag mailbox_closed;",
   "128235 closed_mailbox_with_raised_flag mailbox;",
   "128236 mailbox_with_mail open_mailbox_with_raised_flag;",
   "128237 mailbox_with_no_mail open_mailbox_with_lowered_flag;128238 postbox;",
   "128239 postal_horn;128240 newspaper;128241 iphone mobile_phone;",
   "128242 calling mobile_phone_with_arrow;128243 vibration_mode;128244 mobile_phone_off;",
   "128245 no_mobile_phones;128246 antenna_bars signal_strength;128247 camera;",
   "128248 camera_with_flash;128249 video_camera;128250 television tv;128251 radio;",
   "128252 vhs videocassette;128253 film_projector;128255 prayer_beads;",
   "128256 shuffle_tracks_button twisted_rightwards_arrows;128257 repeat repeat_button;",
   "128258 repeat_one repeat_single_button;128259 arrows_clockwise clockwise_vertical_arrows;",
   "128260 arrows_counterclockwise counterclockwise_arrows_button;",
   "128261 dim_button low_brightness;128262 bright_button high_brightness;",
   "128263 mute muted_speaker;128264 speaker speaker_low_volume;",
   "128265 sound speaker_medium_volume;128266 loud_sound speaker_high_volume;128267 battery;",
   "128268 electric_plug;128269 mag magnifying_glass_tilted_left;",
   "128270 mag_right magnifying_glass_tilted_right;128271 lock_with_ink_pen locked_with_pen;",
   "128272 closed_lock_with_key locked_with_key;128273 key;128274 lock locked;",
   "128275 unlock unlocked;128276 bell;128277 bell_with_slash no_bell;128278 bookmark;",
   "128279 link;128280 radio_button;128281 back back_arrow;128282 end end_arrow;",
   "128283 on on!_arrow;128284 soon soon_arrow;128285 top top_arrow;",
   "128286 no_one_under_eighteen underage;128287 keycap_10 ten;",
   "128288 capital_abcd input_latin_uppercase;128289 abcd input_latin_lowercase;",
   "128290 1234 input_numbers;128291 input_symbols symbols;128292 abc input_latin_letters;",
   "128293 fire;128294 flashlight;128295 wrench;128296 hammer;128297 nut_and_bolt;",
   "128298 hocho kitchen_knife knife;128299 gun pistol;128300 microscope;128301 telescope;",
   "128302 crystal_ball;128303 dotted_six-pointed_star six_pointed_star;",
   "128304 beginner japanese_symbol_for_beginner;128305 trident trident_emblem;",
   "128306 black_square_button;128307 white_square_button;128308 red_circle;",
   "128309 blue_circle large_blue_circle;128310 large_orange_diamond;128311 large_blue_diamond;",
   "128312 small_orange_diamond;128313 small_blue_diamond;",
   "128314 red_triangle_pointed_up small_red_triangle;",
   "128315 red_triangle_pointed_down small_red_triangle_down;",
   "128316 arrow_up_small upwards_button;128317 arrow_down_small downwards_button;",
   "128329 om om_symbol;128330 dove dove_of_peace;128331 kaaba;128332 mosque;128333 synagogue;",
   "128334 menorah menorah_with_nine_branches;128336 clock1 one_o’clock;",
   "128337 clock2 two_o’clock;128338 clock3 three_o’clock;128339 clock4 four_o’clock;",
   "128340 clock5 five_o’clock;128341 clock6 six_o’clock;128342 clock7 seven_o’clock;",
   "128343 clock8 eight_o’clock;128344 clock9 nine_o’clock;128345 clock10 ten_o’clock;",
   "128346 clock11 eleven_o’clock;128347 clock12 twelve_o’clock;128348 clock130 one-thirty;",
   "128349 clock230 two-thirty;128350 clock330 three-thirty;128351 clock430 four-thirty;",
   "128352 clock530 five-thirty;128353 clock630 six-thirty;128354 clock730 seven-thirty;",
   "128355 clock830 eight-thirty;128356 clock930 nine-thirty;128357 clock1030 ten-thirty;",
   "128358 clock1130 eleven-thirty;128359 clock1230 twelve-thirty;128367 candle;",
   "128368 mantelpiece_clock;128371 hole;",
   "128372 man_in_business_suit_levitating man_in_suit_levitating~;",
   "128373 detective~ sleuth_or_spy;128373+65039+8205+9792+65039 woman_detective~;",
   "128373+65039+8205+9794+65039 man_detective~;128374 dark_sunglasses;128375 spider;",
   "128376 spider_web;128377 joystick;128378 man_dancing~;128391 linked_paperclips;",
   "128394 lower_left_ballpoint_pen pen;128395 fountain_pen lower_left_fountain_pen;",
   "128396 lower_left_paintbrush paintbrush;128397 crayon lower_left_crayon;",
   "128400 hand_with_fingers_splayed~ raised_hand_with_fingers_splayed;",
   "128405 middle_finger~ reversed_hand_with_middle_finger_extended;",
   "128406 raised_hand_with_part_between_middle_and_ring_fingers vulcan_salute~;",
   "128420 black_heart;128421 desktop_computer;128424 printer;",
   "128433 computer_mouse three_button_mouse;128434 trackball;",
   "128444 frame_with_picture framed_picture;128450 card_index_dividers;128451 card_file_box;",
   "128452 file_cabinet;128465 wastebasket;128466 spiral_note_pad spiral_notepad;",
   "128467 spiral_calendar spiral_calendar_pad;128476 clamp compression;128477 old_key;",
   "128478 rolled-up_newspaper rolled__up_newspaper;128481 dagger dagger_knife;",
   "128483 speaking_head speaking_head_in_silhouette;128488 left_speech_bubble;",
   "128495 right_anger_bubble;128499 ballot_box_with_ballot;128506 world_map;128507 mount_fuji;",
   "128508 tokyo_tower;128509 statue_of_liberty;128510 japan map_of_japan;128511 moai moyai;",
   "128512 grinning grinning_face;128513 beaming_face_with_smiling_eyes grin;",
   "128514 face_with_tears_of_joy joy;128515 grinning_face_with_big_eyes smiley;",
   "128516 grinning_face_with_smiling_eyes smile;128517 grinning_face_with_sweat sweat_smile;",
   "128518 grinning_squinting_face laughing satisfied;128519 innocent smiling_face_with_halo;",
   "128520 smiling_face_with_horns smiling_imp;128521 wink winking_face;",
   "128522 blush smiling_face_with_smiling_eyes;128523 face_savoring_food yum;",
   "128524 relieved relieved_face;128525 heart_eyes smiling_face_with_heart-eyes;",
   "128526 smiling_face_with_sunglasses sunglasses;128527 smirk smirking_face;",
   "128528 neutral_face;128529 expressionless expressionless_face;128530 unamused unamused_face;",
   "128531 downcast_face_with_sweat sweat;128532 pensive pensive_face;",
   "128533 confused confused_face;128534 confounded confounded_face;128535 kissing kissing_face;",
   "128536 face_blowing_a_kiss kissing_heart;",
   "128537 kissing_face_with_smiling_eyes kissing_smiling_eyes;",
   "128538 kissing_closed_eyes kissing_face_with_closed_eyes;",
   "128539 face_with_tongue stuck_out_tongue;",
   "128540 stuck_out_tongue_winking_eye winking_face_with_tongue;",
   "128541 squinting_face_with_tongue stuck_out_tongue_closed_eyes;",
   "128542 disappointed disappointed_face;128543 worried worried_face;128544 angry angry_face;",
   "128545 pouting_face rage;128546 cry crying_face;128547 persevere persevering_face;",
   "128548 face_with_steam_from_nose triumph;128549 disappointed_relieved sad_but_relieved_face;",
   "128550 frowning frowning_face_with_open_mouth;128551 anguished anguished_face;",
   "128552 fearful fearful_face;128553 weary weary_face;128554 sleepy sleepy_face;",
   "128555 tired_face;128556 grimacing grimacing_face;128557 loudly_crying_face sob;",
   "128558 face_with_open_mouth open_mouth;128559 hushed hushed_face;",
   "128560 anxious_face_with_sweat cold_sweat;128561 face_screaming_in_fear scream;",
   "128562 astonished astonished_face;128563 flushed flushed_face;128564 sleeping sleeping_face;",
   "128565 dizzy_face;128566 face_without_mouth no_mouth;128567 face_with_medical_mask mask;",
   "128568 grinning_cat_face_with_smiling_eyes smile_cat;",
   "128569 cat_face_with_tears_of_joy joy_cat;128570 grinning_cat_face smiley_cat;",
   "128571 heart_eyes_cat smiling_cat_face_with_heart-eyes;",
   "128572 cat_face_with_wry_smile smirk_cat;128573 kissing_cat kissing_cat_face;",
   "128574 pouting_cat pouting_cat_face;128575 crying_cat_face;128576 scream_cat weary_cat_face;",
   "128577 slightly_frowning_face;128578 slightly_smiling_face;",
   "128579 upside-down_face upside__down_face;128580 face_with_rolling_eyes;",
   "128581 no_good person_gesturing_no~;128581+8205+9792+65039 woman_gesturing_no~;",
   "128581+8205+9794+65039 man_gesturing_no~;128582 ok_woman person_gesturing_ok~;",
   "128582+8205+9792+65039 woman_gesturing_ok~;128582+8205+9794+65039 man_gesturing_ok~;",
   "128583 bow person_bowing~;128583+8205+9792+65039 woman_bowing~;",
   "128583+8205+9794+65039 man_bowing~;128584 see-no-evil_monkey see_no_evil;",
   "128585 hear-no-evil_monkey hear_no_evil;128586 speak-no-evil_monkey speak_no_evil;",
   "128587 person_raising_hand~ raising_hand;128587+8205+9792+65039 woman_raising_hand~;",
   "128587+8205+9794+65039 man_raising_hand~;128588 raised_hands raising_hands~;",
   "128589 person_frowning~;128589+8205+9792+65039 woman_frowning~;",
   "128589+8205+9794+65039 man_frowning~;128590 person_pouting~ person_with_pouting_face;",
   "128590+8205+9792+65039 woman_pouting~;128590+8205+9794+65039 man_pouting~;",
   "128591 folded_hands~ pray;128640 rocket;128641 helicopter;",
   "128642 locomotive steam_locomotive;128643 railway_car;",
   "128644 bullettrain_side high-speed_train;128645 bullet_train bullettrain_front;",
   "128646 train2;128647 metro;128648 light_rail;128649 station;128650 tram;",
   "128651 train tram_car;128652 bus;128653 oncoming_bus;128654 trolleybus;",
   "128655 bus_stop busstop;128656 minibus;128657 ambulance;128658 fire_engine;",
   "128659 police_car;128660 oncoming_police_car;128661 taxi;128662 oncoming_taxi;",
   "128663 automobile car red_car;128664 oncoming_automobile;",
   "128665 blue_car sport_utility_vehicle;128666 delivery_truck truck;128667 articulated_lorry;",
   "128668 tractor;128669 monorail;128670 mountain_railway;128671 suspension_railway;",
   "128672 mountain_cableway;128673 aerial_tramway;128674 ship;",
   "128675 person_rowing_boat~ rowboat;128675+8205+9792+65039 woman_rowing_boat~;",
   "128675+8205+9794+65039 man_rowing_boat~;128676 speedboat;",
   "128677 horizontal_traffic_light traffic_light;128678 vertical_traffic_light;",
   "128679 construction;128680 police_car_light rotating_light;",
   "128681 triangular_flag triangular_flag_on_post;128682 door;128683 no_entry_sign prohibited;",
   "128684 cigarette smoking;128685 no_smoking;",
   "128686 litter_in_bin_sign put_litter_in_its_place;128687 do_not_litter no_littering;",
   "128688 potable_water;128689 non-potable_water non__potable_water;128690 bicycle bike;",
   "128691 no_bicycles;128692 bicyclist person_biking~;128692+8205+9792+65039 woman_biking~;",
   "128692+8205+9794+65039 man_biking~;128693 mountain_bicyclist person_mountain_biking~;",
   "128693+8205+9792+65039 woman_mountain_biking~;128693+8205+9794+65039 man_mountain_biking~;",
   "128694 person_walking~ walking;128694+8205+9792+65039 woman_walking~;",
   "128694+8205+9794+65039 man_walking~;128695 no_pedestrians;128696 children_crossing;",
   "128697 mens men’s_room;128698 womens women’s_room;128699 restroom;128700 baby_symbol;",
   "128701 toilet;128702 water_closet wc;128703 shower;128704 bath person_taking_bath~;",
   "128705 bathtub;128706 passport_control;128707 customs;128708 baggage_claim;",
   "128709 left_luggage;128715 couch_and_lamp;128716 person_in_bed~ sleeping_accommodation;",
   "128717 shopping_bags;128718 bellhop_bell;128719 bed;128720 place_of_worship;",
   "128721 stop_sign;128722 shopping_cart;128725 hindu_temple;128736 hammer_and_wrench;",
   "128737 shield;128738 oil_drum;128739 motorway;128740 railway_track;128741 motor_boat;",
   "128745 small_airplane;128747 airplane_departure;128748 airplane_arrival airplane_arriving;",
   "128755 passenger_ship;128756 kick_scooter;128757 motor_scooter;128758 canoe;128759 sled;",
   "128760 flying_saucer;128761 skateboard;128762 auto_rickshaw;128992 orange_circle;",
   "128993 yellow_circle;128994 green_circle;128995 purple_circle;128996 brown_circle;",
   "128997 red_square;128998 blue_square;128999 orange_square;129000 yellow_square;",
   "129001 green_square;129002 purple_square;129003 brown_square;129293 white_heart;",
   "129294 brown_heart;129295 pinching_hand;129296 zipper-mouth_face zipper__mouth_face;",
   "129297 money-mouth_face money__mouth_face;129298 face_with_thermometer;129299 nerd_face;",
   "129300 thinking_face;129301 face_with_head-bandage face_with_head__bandage;",
   "129302 robot robot_face;129303 hugging_face;129304 sign_of_the_horns~;129305 call_me_hand~;",
   "129306 raised_back_of_hand~;129307 left-facing_fist~;129308 right-facing_fist~;",
   "129309 handshake;129310 crossed_fingers~;129311 love-you_gesture~;129312 cowboy_hat_face;",
   "129313 clown_face;129314 nauseated_face;129315 rolling_on_the_floor_laughing;",
   "129316 drooling_face;129317 lying_face;129318 person_facepalming~;",
   "129318+8205+9792+65039 woman_facepalming~;129318+8205+9794+65039 man_facepalming~;",
   "129319 sneezing_face;129320 face_with_raised_eyebrow;129321 star-struck;129322 zany_face;",
   "129323 shushing_face;129324 face_with_symbols_on_mouth;129325 face_with_hand_over_mouth;",
   "129326 face_vomiting;129327 exploding_head;129328 pregnant_woman~;129329 breast-feeding~;",
   "129330 palms_up_together~;129331 selfie~;129332 prince~;129333 man_in_tuxedo~;",
   "129334 mrs._claus~;129335 person_shrugging~;129335+8205+9792+65039 woman_shrugging~;",
   "129335+8205+9794+65039 man_shrugging~;129336 person_cartwheeling~;",
   "129336+8205+9792+65039 woman_cartwheeling~;129336+8205+9794+65039 man_cartwheeling~;",
   "129337 person_juggling~;129337+8205+9792+65039 woman_juggling~;",
   "129337+8205+9794+65039 man_juggling~;129338 person_fencing;129340 people_wrestling;",
   "129340+8205+9792+65039 women_wrestling;129340+8205+9794+65039 men_wrestling;",
   "129341 person_playing_water_polo~;129341+8205+9792+65039 woman_playing_water_polo~;",
   "129341+8205+9794+65039 man_playing_water_polo~;129342 person_playing_handball~;",
   "129342+8205+9792+65039 woman_playing_handball~;129342+8205+9794+65039 man_playing_handball~;",
   "129343 diving_mask;129344 wilted_flower;129345 drum;129346 clinking_glasses;",
   "129347 tumbler_glass;129348 spoon;129349 goal_net;129351 1st_place_medal;",
   "129352 2nd_place_medal;129353 3rd_place_medal;129354 boxing_glove;",
   "129355 martial_arts_uniform;129356 curling_stone;129357 lacrosse;129358 softball;",
   "129359 flying_disc;129360 croissant;129361 avocado;129362 cucumber;129363 bacon;",
   "129364 potato;129365 carrot;129366 baguette_bread;129367 green_salad;",
   "129368 shallow_pan_of_food;129369 stuffed_flatbread;129371 glass_of_milk;129372 peanuts;",
   "129373 kiwi_fruit;129374 pancakes;129375 dumpling;129376 fortune_cookie;129377 takeout_box;",
   "129378 chopsticks;129379 bowl_with_spoon;129380 cup_with_straw;129381 coconut;",
   "129382 broccoli;129383 pie;129384 pretzel;129385 cut_of_meat;129386 sandwich;",
   "129387 canned_food;129388 leafy_green;129389 mango;129390 moon_cake;129391 bagel;",
   "129392 smiling_face_with_3_hearts;129393 yawning_face;129395 partying_face;",
   "129396 woozy_face;129397 hot_face;129398 cold_face;129402 pleading_face;129403 sari;",
   "129404 lab_coat;129405 goggles;129406 hiking_boot;129407 flat_shoe;129408 crab;",
   "129409 lion_face;129410 scorpion;129411 turkey;129412 unicorn_face;129413 eagle;129414 duck;",
   "129415 bat;129416 shark;129417 owl;129418 fox_face;129419 butterfly;129420 deer;",
   "129421 gorilla;129422 lizard;129423 rhinoceros;129424 shrimp;129425 squid;129426 giraffe;",
   "129427 zebra;129428 hedgehog;129429 sauropod;129430 t-rex;129431 cricket;129432 kangaroo;",
   "129433 llama;129434 peacock;129435 hippopotamus;129436 parrot;129437 raccoon;129438 lobster;",
   "129439 mosquito;129440 microbe;129441 badger;129442 swan;129445 sloth;129446 otter;",
   "129447 orangutan;129448 skunk;129449 flamingo;129450 oyster;129454 guide_dog;",
   "129455 probing_cane;129456 red_hair;129457 curly_hair;129458 bald;129459 white_hair;",
   "129460 bone;129461 leg;129462 foot;129463 tooth;129464 superhero;129465 supervillain;",
   "129466 safety_vest;129467 ear_with_hearing_aid;129468 motorized_wheelchair;",
   "129469 manual_wheelchair;129470 mechanical_arm;129471 mechanical_leg;129472 cheese_wedge;",
   "129473 cupcake;129474 salt;129475 beverage_box;129476 garlic;129477 onion;129478 falafel;",
   "129479 waffle;129480 butter;129481 mate;129482 ice;129485 person_standing;",
   "129486 person_kneeling;129487 deaf_person;129488 face_with_monocle;129489 adult~;",
   "129489+8205+129309+8205+129489 people_holding_hands;129490 child~;129491 older_adult~;",
   "129492 bearded_person~;129493 woman_with_headscarf~;129494 person_in_steamy_room~;",
   "129494+8205+9792+65039 woman_in_steamy_room~;129494+8205+9794+65039 man_in_steamy_room~;",
   "129495 person_climbing~;129495+8205+9792+65039 woman_climbing~;",
   "129495+8205+9794+65039 man_climbing~;129496 person_in_lotus_position~;",
   "129496+8205+9792+65039 woman_in_lotus_position~;",
   "129496+8205+9794+65039 man_in_lotus_position~;129497 mage~;",
   "129497+8205+9792+65039 woman_mage~;129497+8205+9794+65039 man_mage~;129498 fairy~;",
   "129498+8205+9792+65039 woman_fairy~;129498+8205+9794+65039 man_fairy~;129499 vampire~;",
   "129499+8205+9792+65039 woman_vampire~;129499+8205+9794+65039 man_vampire~;129500 merperson~;",
   "129500+8205+9792+65039 mermaid~;129500+8205+9794+65039 merman~;129501 elf~;",
   "129501+8205+9792+65039 woman_elf~;129501+8205+9794+65039 man_elf~;129502 genie;",
   "129502+8205+9792+65039 woman_genie;129502+8205+9794+65039 man_genie;129503 zombie;",
   "129503+8205+9792+65039 woman_zombie;129503+8205+9794+65039 man_zombie;129504 brain;",
   "129505 orange_heart;129506 billed_cap;129507 scarf;129508 gloves;129509 coat;129510 socks;",
   "129511 red_envelope;129512 firecracker;129513 jigsaw;129514 test_tube;129515 petri_dish;",
   "129516 dna;129517 compass;129518 abacus;129519 fire_extinguisher;129520 toolbox;",
   "129521 brick;129522 magnet;129523 luggage;129524 lotion_bottle;129525 thread;129526 yarn;",
   "129527 safety_pin;129528 teddy_bear;129529 broom;129530 basket;129531 roll_of_paper;",
   "129532 soap;129533 sponge;129534 receipt;129535 nazar_amulet;129648 ballet_shoes;",
   "129649 one-piece_swimsuit;129650 briefs;129651 shorts;129656 drop_of_blood;",
   "129657 adhesive_bandage;129658 stethoscope;129664 yo-yo;129665 kite;129680 ringed_planet;",
   "129681 chair;129682 razor;129683 axe;129684 diya_lamp;129685 banjo"]

/-- An emoji: its characters, and whether its name takes skin tones. -/
structure Emoji where
  chars : List Char
  toned : Bool
  deriving DecidableEq, Repr

namespace Emoji

/-- The character of a code point written in decimal. -/
def codePoint (digits : List Char) : Char := Char.ofNat ((String.ofList digits).toNat?.getD 0)

/-- One name of an emoji. -/
def named (chars : List Char) (name : List Char) : List Char × Emoji :=
  match name.reverse with
  | '~' :: more => (more.reverse, ⟨chars, true⟩)
  | _ => (name, ⟨chars, false⟩)

/-- The names of one emoji. -/
def ofEntry (entry : List Char) : Table (List Char) Emoji :=
  match split ' ' entry with
  | codes :: names => names.map (named ((split '+' codes).map codePoint))
  | [] => []

/-- All emoji by their names. -/
def table : Table (List Char) Emoji := (split ';' emojiList.toList).flatMap ofEntry

/-- The skin tones: how each ends a name, and the character that asks for it. -/
def tones : Table (List Char) Char :=
  [("_light_skin_tone".toList, Char.ofNat 0x1F3FB),
    ("_medium-light_skin_tone".toList, Char.ofNat 0x1F3FC),
    ("_medium_skin_tone".toList, Char.ofNat 0x1F3FD),
    ("_medium-dark_skin_tone".toList, Char.ofNat 0x1F3FE),
    ("_dark_skin_tone".toList, Char.ofNat 0x1F3FF)]

/-- Asks for a plain drawing. -/
def textMark : Char := Char.ofNat 0xFE0E

/-- Asks for a coloured drawing. -/
def pictureMark : Char := Char.ofNat 0xFE0F

/-- An emoji with a skin tone: the tone follows the first character, and takes the place of a mark
    that asks for a coloured drawing. -/
def withTone (tone : Char) : List Char → List Char
  | [] => []
  | c :: rest => c :: tone :: (if rest.head? = some pictureMark then rest.drop 1 else rest)

/-- A name without its ending, if it has that ending. -/
def dropEnding? (ending name : List Char) : Option (List Char) :=
  if ending.isSuffixOf name then some (name.take (name.length - ending.length)) else none

/-- The characters of an emoji by its name with a skin tone. -/
def tonedChars? (name : List Char) : Option (List Char) :=
  tones.findSome? fun (ending, tone) => do
    let emoji ← table.get? (← dropEnding? ending name)
    if emoji.toned then some (withTone tone emoji.chars) else none

/-- The characters of an emoji by its name in lower case. -/
def chars? (name : List Char) : Option (List Char) :=
  match table.get? name with
  | some emoji => some emoji.chars
  | none => tonedChars? name

/-- The characters that the text between two colons stands for. -/
def ofCode? (code : List Char) : Option (List Char) :=
  match dropEnding? "-emoji".toList code, dropEnding? "-text".toList code with
  | some name, _ => (chars? (lower name)).map (· ++ [pictureMark])
  | none, some name => (chars? (lower name)).map (· ++ [textMark])
  | none, none => chars? (lower code)

end Emoji

/-- A text with the emoji that are named in it. Between the colons stands no white space; after a
    pair of colons the search goes on behind the second. -/
def replaceEmoji : List Char → List Char
  | [] => []
  | c :: rest =>
    if c = ':' then
      let code := rest.takeWhile fun c => !isBlank c && c != ':'
      match _h : rest.drop code.length with
      | ':' :: after =>
        (Emoji.ofCode? code).getD (':' :: code ++ [':']) ++ replaceEmoji after
      | _ => c :: replaceEmoji rest
    else c :: replaceEmoji rest
  termination_by s => s.length
  decreasing_by
    · have : (rest.drop code.length).length = (':' :: after).length := by rw [_h]
      simp only [List.length_drop, List.length_cons] at this ⊢
      omega
    · simp
    · simp

end LanguageClient.Text
